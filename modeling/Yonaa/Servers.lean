import Yonaa.Machine
import Yonaa.Registry

/-! Several servers in one process. They share the file-level `next_available_id`, which
a server increments before it accepts and decrements when the accept fails. -/
namespace Yonaa
open Machine

/-- Where the network thread of a server is in its accept loop. -/
inductive Accepting where
  | idle
  | taken (id : ClientId)        -- after `next_available_id++`
  | accepted (id : ClientId)     -- the accept has succeeded
  | failed                       -- the accept has failed
deriving DecidableEq

def Accepting.pending : Accepting → List ClientId
  | .taken id | .accepted id => [id]
  | .idle | .failed => []

structure Party where
  accepting : Accepting
  ids : List ClientId            -- of the entries of `clients_`
deriving DecidableEq

/-- The ids that are or can still become ids of entries. -/
def Party.held (p : Party) : List ClientId := p.accepting.pending++p.ids

structure Servers (ι : Type) where
  nextAvailableId : ClientId
  parties : ι → Party

namespace Servers
variable {ι : Type}

/-- The steps of the accept loop of one server, and its sweep. -/
inductive Act (ι : Type) where
  | take (i : ι)                              -- `next_available_id++`
  | accept (i : ι) (succeeds : Bool)          -- `acceptor_.accept(ec_)`
  | giveBack (i : ι)                          -- `next_available_id--`
  | register (i : ι)                          -- `clients_.push_back`
  | sweep (i : ι) (left : List ClientId)      -- entries are moved and erased

def initial : Servers ι := ⟨1,fun _ => ⟨.idle,[]⟩⟩

variable [DecidableEq ι]

def put (s : Servers ι) (n : ClientId) (i : ι) (p : Party) : Servers ι :=
  ⟨n,Function.update s.parties i p⟩

def step (s : Servers ι) : Act ι → Option (Servers ι)
  | .take i => match s.parties i with
    | ⟨.idle,ids⟩ => some (s.put (s.nextAvailableId+1) i ⟨.taken s.nextAvailableId,ids⟩)
    | _ => none
  | .accept i succeeds => match s.parties i with
    | ⟨.taken id,ids⟩ =>
      some (s.put s.nextAvailableId i ⟨if succeeds then .accepted id else .failed,ids⟩)
    | _ => none
  | .giveBack i => match s.parties i with
    | ⟨.failed,ids⟩ => some (s.put (s.nextAvailableId-1) i ⟨.idle,ids⟩)
    | _ => none
  | .register i => match s.parties i with
    | ⟨.accepted id,ids⟩ => some (s.put s.nextAvailableId i ⟨.idle,ids++[id]⟩)
    | _ => none
  | .sweep i left => match s.parties i with
    | ⟨.idle,ids⟩ =>
      if left.Subperm ids then some (s.put s.nextAvailableId i ⟨.idle,left⟩) else none
    | _ => none

/-- A rollback is in order if no id from the decremented counter on is held by any
server. The counter must not wrap around. -/
def Orderly (s : Servers ι) : Act ι → Prop
  | .take _ => s.nextAvailableId.toNat+1 < 2^64
  | .giveBack _ => ∀ j, ∀ id ∈ (s.parties j).held, id < s.nextAvailableId-1
  | _ => True

instance [Fintype ι] (s : Servers ι) (a : Act ι) : Decidable (Orderly s a) :=
  match a with
  | .take _ => inferInstanceAs (Decidable (s.nextAvailableId.toNat+1 < 2^64))
  | .giveBack _ =>
    inferInstanceAs (Decidable (∀ j, ∀ id ∈ (s.parties j).held, id < s.nextAvailableId-1))
  | .accept _ _ | .register _ | .sweep _ _ => isTrue trivial

/-- The ids a server holds are distinct and below the counter. -/
structure Counted (s : Servers ι) : Prop where
  nodup : ∀ i, (s.parties i).held.Nodup
  below : ∀ i, ∀ id ∈ (s.parties i).held, id < s.nextAvailableId

omit [DecidableEq ι] in
theorem Counted.initial : Counted (initial : Servers ι) :=
  ⟨fun _ => List.nodup_nil,fun _ _ h => absurd h List.not_mem_nil⟩

theorem Counted.put {s : Servers ι} (hs : Counted s) {n : ClientId} {i : ι} {p : Party}
    (hp : p.held.Nodup) (hn : ∀ id ∈ p.held, id < n)
    (ho : ∀ j, j ≠ i → ∀ id ∈ (s.parties j).held, id < n) : Counted (s.put n i p) := by
  constructor
  · intro j
    by_cases hj : j = i
    · subst hj
      simpa [Servers.put] using hp
    · simpa [Servers.put,hj] using hs.nodup j
  · intro j
    by_cases hj : j = i
    · subst hj
      simpa [Servers.put] using hn
    · simpa [Servers.put,hj] using ho j hj

omit [DecidableEq ι] in
theorem Counted.held {s : Servers ι} (hs : Counted s) {i : ι} {p : Party}
    (hp : s.parties i = p) : p.held.Nodup ∧ ∀ id ∈ p.held, id < s.nextAvailableId := by
  subst hp
  exact ⟨hs.nodup i,hs.below i⟩

theorem Counted.shrink {s : Servers ι} (hs : Counted s) {i : ι} {p q : Party}
    (hp : s.parties i = p) (hq : q.held.Subperm p.held) :
    Counted (s.put s.nextAvailableId i q) := by
  obtain ⟨hnodup,hbelow⟩ := hs.held hp
  refine hs.put ?_ (fun id hid => hbelow id (hq.subset hid)) fun j _ => hs.below j
  obtain ⟨l,hl,hsub⟩ := hq
  exact hl.nodup_iff.mp (hsub.nodup hnodup)

theorem Counted.step {s t : Servers ι} {a : Act ι} (hs : Counted s) (ho : Orderly s a)
    (h : step s a = some t) : Counted t := by
  cases a with
  | take i =>
    simp only [Servers.step] at h
    split at h
    next ids hp =>
      cases h
      obtain ⟨hnodup,hbelow⟩ := hs.held hp
      have hlt : ∀ id, id < s.nextAvailableId → id < s.nextAvailableId+1 := by
        intro id hid
        have hwrap : s.nextAvailableId.toNat+1 < 2^64 := ho
        rw [UInt64.lt_iff_toNat_lt] at hid ⊢
        rw [UInt64.toNat_add]
        simp only [UInt64.toNat_one]
        omega
      have hself : s.nextAvailableId < s.nextAvailableId+1 := by
        have hwrap : s.nextAvailableId.toNat+1 < 2^64 := ho
        rw [UInt64.lt_iff_toNat_lt,UInt64.toNat_add]
        simp only [UInt64.toNat_one]
        omega
      refine hs.put ?_ ?_ fun j _ id hid => hlt id (hs.below j id hid)
      · refine List.nodup_cons.mpr ⟨?_,hnodup⟩
        intro hmem
        exact absurd (hbelow _ hmem) (UInt64.lt_irrefl _)
      · intro id hid
        obtain rfl | hid := List.mem_cons.mp hid
        · exact hself
        · exact hlt id (hbelow id hid)
    next => cases h
  | accept i succeeds =>
    simp only [Servers.step] at h
    split at h
    next id ids hp =>
      cases h
      refine hs.shrink hp ?_
      cases succeeds with
      | true => exact List.Subperm.refl _
      | false => exact (List.sublist_cons_self id ids).subperm
    next => cases h
  | giveBack i =>
    simp only [Servers.step] at h
    split at h
    next ids hp =>
      cases h
      have hlt := ho i
      rw [hp] at hlt
      exact hs.put (hs.held hp).1 hlt fun j _ => ho j
    next => cases h
  | register i =>
    simp only [Servers.step] at h
    split at h
    next id ids hp =>
      cases h
      exact hs.shrink hp (List.perm_append_singleton id ids).subperm
    next => cases h
  | sweep i left =>
    simp only [Servers.step] at h
    split at h
    next ids hp =>
      split at h
      next hleft =>
        cases h
        exact hs.shrink hp hleft
      next => cases h
    next => cases h

/-- No two entries of one server have the same id, as long as every rollback of the
counter is in order. -/
theorem ids_unique {acts : List (Act ι)} {s : Servers ι}
    (ho : Meets step Orderly initial acts) (h : run step initial acts = some s) :
    ∀ i, (s.parties i).ids.Nodup := by
  have hs : Counted s := ho.invariant (fun _ _ _ => Counted.step) .initial h
  intro i
  exact (List.nodup_append.mp (hs.nodup i)).2.1

/-- Two servers, one failing accept, and the id is given to the next client. -/
def retried : List (Act Bool) :=
  [.take true,.accept true true,.register true,.take false,.accept false false,
    .giveBack false,.take true,.accept true true,.register true,.sweep true [2]]

theorem ids_unique_retried : ∃ s, run step (initial : Servers Bool) retried = some s ∧
    ∀ i, (s.parties i).ids.Nodup := by
  have h : ∃ s, run step (initial : Servers Bool) retried = some s := ⟨_,rfl⟩
  obtain ⟨s,hs⟩ := h
  have ho : Meets step Orderly (initial : Servers Bool) retried := by
    refine .cons rfl (by decide) <| .cons rfl trivial <| .cons rfl trivial <|
      .cons rfl (by decide) <| .cons rfl trivial <| .cons rfl ?_ <|
      .cons rfl (by decide) <| .cons rfl trivial <| .cons rfl trivial <|
      .cons rfl trivial trivial
    intro j
    cases j with
    | false =>
      intro id hid
      exact absurd hid List.not_mem_nil
    | true =>
      intro id hid
      rw [List.eq_of_mem_singleton hid]
      exact show (1 : ClientId) < 1+1+1-1 by decide
  exact ⟨s,hs,ids_unique ho hs⟩

/-- The accept of one server fails after another server has taken the next id. -/
def overtaken : List (Act Bool) :=
  [.take true,.take false,.accept true false,.giveBack true,.accept false true,
    .register false,.take false,.accept false true,.register false]

theorem overtaken_duplicates : ∃ s, run step (initial : Servers Bool) overtaken = some s ∧
    (s.parties false).ids = [2,2] ∧ ¬∀ i, (s.parties i).ids.Nodup :=
  ⟨_,rfl,by decide,by decide⟩

/-! A rollback that is not in order can always be continued to a duplicate. -/

@[simp] theorem put_nextAvailableId (s : Servers ι) (n : ClientId) (i : ι) (p : Party) :
    (s.put n i p).nextAvailableId = n := rfl

@[simp] theorem put_party (s : Servers ι) (n : ClientId) (i : ι) (p : Party) :
    (s.put n i p).parties i = p := by
  simp [put]

@[simp] theorem put_put (s : Servers ι) (n m : ClientId) (i : ι) (p q : Party) :
    (s.put n i p).put m i q = s.put m i q := by
  simp [put]

section Acts
variable {s : Servers ι} {i : ι} {id : ClientId} {ids : List ClientId}

theorem step_take (h : s.parties i = ⟨.idle,ids⟩) :
    step s (.take i) = some (s.put (s.nextAvailableId+1) i ⟨.taken s.nextAvailableId,ids⟩) := by
  simp [step,h]

theorem step_accept (h : s.parties i = ⟨.taken id,ids⟩) :
    step s (.accept i true) = some (s.put s.nextAvailableId i ⟨.accepted id,ids⟩) := by
  simp [step,h]

theorem step_refuse (h : s.parties i = ⟨.taken id,ids⟩) :
    step s (.accept i false) = some (s.put s.nextAvailableId i ⟨.failed,ids⟩) := by
  simp [step,h]

theorem step_giveBack (h : s.parties i = ⟨.failed,ids⟩) :
    step s (.giveBack i) = some (s.put (s.nextAvailableId-1) i ⟨.idle,ids⟩) := by
  simp [step,h]

theorem step_register (h : s.parties i = ⟨.accepted id,ids⟩) :
    step s (.register i) = some (s.put s.nextAvailableId i ⟨.idle,ids++[id]⟩) := by
  simp [step,h]

theorem run_accepted (h : s.parties i = ⟨.idle,ids⟩) :
    run step s [.take i,.accept i true,.register i] =
      some (s.put (s.nextAvailableId+1) i ⟨.idle,ids++[s.nextAvailableId]⟩) := by
  rw [run_cons _ (step_take h),run_cons _ (step_accept (put_party _ _ _ _)),
    run_single (step_register (put_party _ _ _ _))]
  simp

theorem run_refused (h : s.parties i = ⟨.idle,ids⟩) :
    run step s [.take i,.accept i false,.giveBack i] =
      some (s.put s.nextAvailableId i ⟨.idle,ids⟩) := by
  rw [run_cons _ (step_take h),run_cons _ (step_refuse (put_party _ _ _ _)),
    run_single (step_giveBack (put_party _ _ _ _))]
  simp

/-- The counter stands at an id of the server: its next client gets this id again. -/
theorem duplicate_idle (h : s.parties i = ⟨.idle,ids⟩) (hid : s.nextAvailableId ∈ ids) :
    ∃ acts t, run step s acts = some t ∧ ¬(t.parties i).ids.Nodup := by
  refine ⟨_,_,run_accepted h,?_⟩
  rw [put_party]
  intro hnodup
  have hdisjoint := (List.nodup_append.mp hnodup).2.2
  exact hdisjoint _ hid _ (by simp) rfl

theorem duplicate_held (h : s.nextAvailableId ∈ (s.parties i).held) :
    ∃ acts t, run step s acts = some t ∧ ¬(t.parties i).ids.Nodup := by
  have hlater : ∀ {as u ids}, run step s as = some u → u.parties i = ⟨.idle,ids⟩ →
      u.nextAvailableId ∈ ids → ∃ acts t, run step s acts = some t ∧
        ¬(t.parties i).ids.Nodup := by
    intro as u ids hu hp hid
    obtain ⟨acts,t,ht,hdup⟩ := duplicate_idle hp hid
    exact ⟨as++acts,t,run_trans hu ht,hdup⟩
  cases hp : s.parties i with | mk accepting ids
  rw [hp] at h
  cases accepting with
  | idle => exact duplicate_idle hp h
  | taken id =>
    have hrun : run step s [.accept i true,.register i] =
        some (s.put s.nextAvailableId i ⟨.idle,ids++[id]⟩) := by
      rw [run_cons _ (step_accept hp),run_single (step_register (put_party _ _ _ _))]
      simp
    refine hlater hrun (put_party _ _ _ _) ?_
    exact (List.perm_append_singleton id ids).mem_iff.mpr h
  | accepted id =>
    refine hlater (run_single (step_register hp)) (put_party _ _ _ _) ?_
    exact (List.perm_append_singleton id ids).mem_iff.mpr h
  | failed =>
    -- The rollback of this server makes room for one more client first.
    have hrun := run_trans (run_single (step_giveBack hp)) (run_accepted (put_party _ _ _ _))
    refine hlater hrun (put_party _ _ _ _) ?_
    have hid : s.nextAvailableId ∈ ids := h
    simp [hid]

end Acts

theorem disorderly_duplicates {s : Servers ι} {i : ι} (hs : Counted s)
    (hi : (s.parties i).accepting = .failed) (ho : ¬Orderly s (.giveBack i)) :
    ∃ acts t j, run step s (.giveBack i::acts) = some t ∧ ¬(t.parties j).ids.Nodup := by
  cases hp : s.parties i with | mk accepting ids
  rw [hp] at hi
  cases hi
  have hback := step_giveBack hp
  simp only [Orderly,not_forall] at ho
  obtain ⟨j,id,hid,hge⟩ := ho
  -- The held id is the decremented counter itself.
  have hlast : id = s.nextAvailableId-1 := by
    have hlt := hs.below j id hid
    rw [UInt64.lt_iff_toNat_lt] at hlt hge
    apply UInt64.toNat_inj.mp
    have hone : (1 : UInt64) ≤ s.nextAvailableId := by
      rw [UInt64.le_iff_toNat_le]
      simp only [UInt64.toNat_one]
      omega
    rw [UInt64.toNat_sub_of_le _ _ hone] at hge ⊢
    simp only [UInt64.toNat_one] at hge ⊢
    omega
  have hheld : (s.put (s.nextAvailableId-1) i ⟨.idle,ids⟩).nextAvailableId ∈
      ((s.put (s.nextAvailableId-1) i ⟨.idle,ids⟩).parties j).held := by
    rw [put_nextAvailableId,← hlast]
    by_cases hj : j = i
    · subst hj
      rw [hp] at hid
      rw [put_party]
      exact hid
    · simpa [put,hj] using hid
  obtain ⟨acts,t,ht,hdup⟩ := duplicate_held hheld
  exact ⟨acts,t,j,by rw [run_cons _ hback]; exact ht,hdup⟩

/-! One server of the process is the server of a run. -/

/-- The server i of the process, outside the construction of a client, as a state of its run
has it. -/
structure Shows (s : Servers ι) (i : ι) (w : World) : Prop where
  party : s.parties i = ⟨.idle,ids w⟩
  counter : s.nextAvailableId = w.nextAvailableId

theorem Shows.put {s : Servers ι} {n : ClientId} {i : ι} {w : World}
    (hn : n = w.nextAvailableId) : Shows (s.put n i ⟨.idle,ids w⟩) i w :=
  ⟨put_party _ _ _ _,hn⟩

open Server in
/-- The accept loop takes an id, accepts, and registers the client or gives the id back. -/
theorem acceptClient_acts {s : Servers ι} {i : ι} {w w' : World} {b : Bool} (hs : Shows s i w)
    (h : acceptClient.run w = (.ok b,w')) :
    ∃ t, run step s [.take i,.accept i b,if b then .register i else .giveBack i] = some t ∧
      Shows t i w' := by
  have hrefused : Quiet true w w' → Shows (s.put s.nextAvailableId i ⟨.idle,ids w⟩) i w' := by
    intro hq
    have hids : ids w' = ids w := by rw [ids,hq.clients]; rfl
    rw [← hids]
    exact .put (hs.counter.trans hq.nextAvailableId.symm)
  have hc := acceptClient_cases w
  rw [h] at hc
  cases hc with
  | refused hq hlog => exact ⟨_,run_refused hs.party,hrefused hq⟩
  | dropped hq hnew hp hec hlog hcloses => exact ⟨_,run_refused hs.party,hrefused hq⟩
  | @registered fd conn p w1 hnew hconn hp hec hfds hserver hnext hlog =>
    refine ⟨_,run_accepted hs.party,put_party _ _ _ _ |>.trans ?_,?_⟩
    · simp [ids,hserver,entries_concat,hs.counter]
    · rw [put_nextAvailableId,hs.counter]
      exact hnext.symm

theorem Shows.move {s : Servers ι} {i : ι} {w w' : World} (hs : Shows s i w)
    (h : IdMove w w') : ∃ acts t, run step s acts = some t ∧ Shows t i w' := by
  cases h with
  | kept hids hnext hann =>
    have hstep : step s (.sweep i (ids w')) =
        some (s.put s.nextAvailableId i ⟨.idle,ids w'⟩) := by
      simp [step,hs.party,hids]
    exact ⟨_,_,run_single hstep,.put (hs.counter.trans hnext.symm)⟩
  | taken hids hnext hann hcount =>
    refine ⟨_,_,run_accepted hs.party,?_⟩
    rw [hs.counter,← hids]
    exact .put hnext.symm

/-- What the run of one server does to its ids and to the counter, this server does as one
of the process. -/
theorem passed_acts (i : ι) {x : Point × World} (hx : Passed x) (ha : x.1 ≠ .dead) :
    ∃ acts s, run step (initial : Servers ι) acts = some s ∧ Shows s i x.2 := by
  refine Passed.induct (I := fun x => x.1 ≠ .dead → ∃ acts s,
    run step (initial : Servers ι) acts = some s ∧ Shows s i x.2) ?_ ?_ hx ha
  · intro env _
    exact ⟨[],initial,rfl,rfl,rfl⟩
  · intro x y hx hm ih hy
    obtain ⟨acts,s,hrun,hs⟩ := ih hm.alive
    obtain ⟨acts',t,hrun',ht⟩ := hs.move (hm.idMove hy)
    exact ⟨acts++acts',t,run_trans hrun hrun',ht⟩

end Servers
end Yonaa
