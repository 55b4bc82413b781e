import Yonaa.Moves

/-! Registry coherence: `clients_`, `poll_group_` and the kernel's descriptors agree
at the points where user code can look at them. -/
namespace Yonaa

def observed {α : Type} (f : Event → Option α) (log : List Observation) : List α :=
  log.filterMap fun o => f o.event

def Event.announces : Event → Option ClientId
  | .callback (.connect id) => some id
  | _ => none

abbrev announced (log : List Observation) : List ClientId := observed Event.announces log

def Observation.accepts (o : Observation) : Bool :=
  match o.event with
  | .sys (.accept _ fd) => decide (0 ≤ fd)
  | _ => false

def Observation.acceptsZero (o : Observation) : Bool :=
  match o.event with
  | .sys (.accept _ fd) => fd == 0
  | _ => false

/-- Fewer than 2^64-1 connections were accepted. -/
def Few (log : List Observation) : Prop := log.countP Observation.accepts < 2^64-1

/-- No accepted connection has the descriptor 0, which the code takes for "none". -/
def Positive (log : List Observation) : Prop := ∀ o ∈ log, o.acceptsZero = false

instance (log : List Observation) : Decidable (Few log) :=
  inferInstanceAs (Decidable (log.countP Observation.accepts < 2^64-1))

instance (log : List Observation) : Decidable (Positive log) :=
  inferInstanceAs (Decidable (∀ o ∈ log, o.acceptsZero = false))

/-- The entry owns the open socket its `fd` names. -/
def Owns (p : Process) (c : ClientInfo) : Prop :=
  c.conn.isConnected = true ∧ c.conn.socket = c.fd ∧ c.fd ∈ p.kernel.fds

/-- The three structures agree. -/
structure Coherent (p : Process) : Prop where
  noNull : none ∉ p.server.clients
  ids : ((entries p.server.clients).map (·.id)).Nodup
  range : ∀ c ∈ entries p.server.clients, c.id ≠ 0 ∧ c.id < p.nextAvailableId
  fds : ((entries p.server.clients).map (·.fd)).Nodup
  poll : p.server.pollGroup.fds = (entries p.server.clients).map (·.fd)
  connected : ∀ c ∈ entries p.server.clients, c.isConnected = true → Owns p c
  flagged : ∀ c ∈ entries p.server.clients, c.isConnected = false →
    p.server.hasDisconnectedClients = true

theorem Few.restrict {l l' : List Observation} (h : l <+: l') (hf : Few l') : Few l := by
  obtain ⟨t,rfl⟩ := h
  unfold Few at hf ⊢
  rw [List.countP_append] at hf
  exact Nat.lt_of_le_of_lt (Nat.le_add_right _ _) hf

theorem Positive.restrict {l l' : List Observation} (h : l <+: l') (hp : Positive l') :
    Positive l := fun o ho => hp o (h.subset ho)

/-! The ids. -/

section Observed
variable {α : Type} (f : Event → Option α)

@[simp] theorem observed_append (l l' : List Observation) :
    observed f (l++l') = observed f l++observed f l' := List.filterMap_append

@[simp] theorem observed_nil : observed f [] = [] := rfl

@[simp] theorem observed_cons (o : Observation) (l : List Observation) :
    observed f (o::l) = (f o.event).toList++observed f l := by
  cases h : f o.event <;> simp [observed,h]

variable {f}

theorem observed_sys (hf : ∀ c, f (.sys c) = none) (calls : List SysCall) (p : Process) :
    observed f (calls.map fun c => ⟨.sys c,p⟩) = [] := by
  simp [observed,hf,List.filterMap_map]

theorem observed_inner (hf : ∀ (e : Event) (b : Bool), e.isInner b → f e = none)
    {new : List Observation} {b : Bool} (h : ∀ o ∈ new, o.event.isInner b) :
    observed f new = [] :=
  List.filterMap_eq_nil_iff.mpr fun o ho => hf o.event b (h o ho)

theorem observed_same {l l' new : List Observation} (hl : l' = l++new)
    (hnew : observed f new = []) : observed f l' = observed f l := by
  rw [hl,observed_append,hnew,List.append_nil]

end Observed

theorem Event.isInner.announces {e : Event} {b : Bool} (h : e.isInner b) :
    e.announces = none := by
  cases e <;> simp_all [isInner,Event.announces]

@[simp] theorem announced_sys (calls : List SysCall) (p : Process) :
    announced (calls.map fun c => ⟨.sys c,p⟩) = [] := observed_sys (fun _ => rfl) calls p

theorem announced_inner {new : List Observation} {b : Bool}
    (h : ∀ o ∈ new, o.event.isInner b) : announced new = [] :=
  observed_inner (fun _ _ he => he.announces) h

def ids (w : World) : List ClientId := (entries w.server.clients).map (·.id)

/-- The first n ids the counter gives out. -/
def firstIds (n : Nat) : List ClientId := (List.range n).map fun k => UInt64.ofNat (k+1)

/-- What the counter, the announced ids and the ids of the entries have to do with each
other. The counter itself is off by one while an accept is under way, so only living
points speak about it. -/
structure Numbered (x : Point × World) : Prop where
  announced : announced x.2.log = firstIds (announced x.2.log).length
  length : (Yonaa.announced x.2.log).length ≤ x.2.log.countP Observation.accepts
  next : x.1 ≠ .dead → x.2.nextAvailableId.toNat = (Yonaa.announced x.2.log).length+1
  nodup : x.1 ≠ .dead → (ids x.2).Nodup
  range : x.1 ≠ .dead → ∀ id ∈ ids x.2, id ≠ 0 ∧ id < x.2.nextAvailableId

theorem ids_set {w w' : World} {i : Nat} {c c' : ClientInfo}
    (hi : w.server.clients[i]? = some (some c))
    (hcs : w'.server.clients = w.server.clients.set i (some c')) (hid : c'.id = c.id) :
    ids w' = ids w := by
  rw [ids,hcs,map_entries_set hi hid]
  rfl

/-- What a move does to the ids: ids can only go, or a client is registered under the
counter's value. -/
inductive IdMove (w w' : World) : Prop where
  | kept (hids : (ids w').Subperm (ids w)) (hnext : w'.nextAvailableId = w.nextAvailableId)
      (hann : announced w'.log = announced w.log)
  | taken (hids : ids w' = ids w++[w.nextAvailableId])
      (hnext : w'.nextAvailableId = w.nextAvailableId+1)
      (hann : announced w'.log = announced w.log++[w.nextAvailableId])
      (hcount : w.log.countP Observation.accepts+1 ≤ w'.log.countP Observation.accepts)

theorem IdMove.same {w w' : World} (hids : ids w' = ids w)
    (hnext : w'.nextAvailableId = w.nextAvailableId)
    (hann : announced w'.log = announced w.log) : IdMove w w' :=
  .kept (by rw [hids]) hnext hann

theorem Quiet.idMove {b : Bool} {w w' : World} (h : Quiet b w w') : IdMove w w' := by
  obtain ⟨new,hl,hn⟩ := h.log
  exact .same (by rw [ids,h.clients]; rfl) h.nextAvailableId
    (observed_same hl (announced_inner hn))

theorem ApiStep.idMove {w w' : World} (h : ApiStep w w') : IdMove w w' := by
  cases h with
  | quiet h => exact h.idMove
  | marked h => exact .same (ids_set h rfl rfl) rfl (by simp [Event.announces])
  | stopped => exact .same rfl rfl (by simp [Event.announces])

open Server in
theorem Move.idMove {x y : Point × World} (h : Move x y) (hy : y.1 ≠ .dead) :
    IdMove x.2 y.2 := by
  cases h with
  | opened hs hn hl => exact .same (by simp [ids,hs]) hn (by rw [hl])
  | api hp h => exact h.idMove
  | enter h => exact .same rfl rfl (by simp [Event.announces])
  | leave h => exact .same rfl rfl rfl
  | refused hrun h => exact h.idMove
  | @registered w w1 fd conn p hrun hnew hconn hp hfds hs hn hl =>
    refine .taken ?_ hn ?_ ?_
    · simp [ids,hs,List.reduceOption_append]
    · simp [hl,Event.announces]
    · simp [hl,Observation.accepts,hnew.1]
  | polled h =>
    obtain ⟨g,-,hs⟩ := h.server
    obtain ⟨pfds,n,hl⟩ := h.log
    exact .same (by simp [ids,hs]) h.nextAvailableId (by simp [hl,Event.announces])
  | ignored => exact .same rfl rfl rfl
  | rejected hrun hf hfds hcalls hd =>
    exact .same (ids_set (find_found hd).1 rfl rfl) rfl (by simp [Event.announces])
  | @closed w s e es i j flags c d ec hrun hf hopen hfds hcalls hd =>
    have hi : ids (w.withClient i { c with conn := {} }) = ids w :=
      ids_set (find_found hf).1 rfl rfl
    refine .same ?_ rfl (by simp [Event.announces])
    rw [← hi]
    exact ids_set (find_found hd).1 rfl rfl
  | delivered hrun hf hopen hne hsize hec hfds hcalls =>
    exact .same rfl rfl (by simp [Event.announces])
  | sweep => exact .same rfl rfl (by simp [Event.announces])
  | skip h => exact .same rfl rfl rfl
  | parted h hkept hgone => exact .same rfl rfl rfl
  | moved hflag hnone hsub hgap hs hn hl =>
    obtain ⟨new,hl,hnew⟩ := hl
    refine .kept ?_ hn (observed_same hl (announced_inner (hnew.isInner true)))
    rw [ids,hs]
    obtain ⟨l,hperm,hl⟩ := hsub
    exact ⟨l.map _,hperm.map _,hl.map _⟩
  | disconnected h hconn hs hn hfds hl =>
    refine .same (ids_set h (congrArg Server.clients hs) rfl) hn ?_
    obtain ⟨-,hl⟩ | ⟨-,p,-,hl⟩ := hl
    · simp [hl,Event.announces]
    · simp [hl,Event.announces]
  | @erased w first i =>
    refine .kept ?_ rfl rfl
    exact ((entries_take _ first).map _).subperm
  | shut ha hs hn hl hnew hf =>
    exact .same (by simp [ids,hs]) hn (observed_same hl (announced_inner (hnew.isInner true)))
  | die hp hl hnew => exact absurd rfl hy

theorem firstIds_succ (n : Nat) : firstIds (n+1) = firstIds n++[UInt64.ofNat (n+1)] := by
  simp [firstIds,List.range_succ]

theorem IdMove.numbered {x y : Point × World} (h : IdMove x.2 y.2) (hx : Numbered x)
    (ha : x.1 ≠ .dead) (hfew : Few y.2.log) (hle : x.2.log <+: y.2.log) : Numbered y := by
  obtain ⟨hann,hlen,hnext,hnodup,hrange⟩ := hx
  have hcount := hle.countP_le (p := Observation.accepts)
  cases h with
  | kept hids hn hann' =>
    refine ⟨by rw [hann']; exact hann,by rw [hann']; omega,?_,?_,?_⟩
    · intro _
      rw [hn,hann']
      exact hnext ha
    · intro _
      obtain ⟨l,hperm,hl⟩ := hids
      exact hperm.nodup_iff.mp ((hnodup ha).sublist hl)
    · intro _ id hid
      rw [hn]
      exact hrange ha id (hids.subset hid)
  | taken hids hn hann' hc =>
    have hnx := hnext ha
    have hfew' : y.2.log.countP Observation.accepts < 2^64-1 := hfew
    have hone : (x.2.nextAvailableId+1).toNat = (announced x.2.log).length+2 := by
      have h1 : (1 : UInt64).toNat = 1 := rfl
      rw [UInt64.toNat_add,hnx,h1]
      exact Nat.mod_eq_of_lt (by omega)
    have hid : x.2.nextAvailableId = UInt64.ofNat ((announced x.2.log).length+1) := by
      rw [← hnx,UInt64.ofNat_toNat]
    refine ⟨?_,?_,?_,?_,?_⟩
    · rw [hann',List.length_append,List.length_singleton,firstIds_succ,← hann,← hid]
    · rw [hann',List.length_append,List.length_singleton]
      omega
    · intro _
      rw [hn,hone,hann',List.length_append,List.length_singleton]
    · intro _
      rw [hids]
      refine List.nodup_append.mpr ⟨hnodup ha,by simp,?_⟩
      intro a hmem b hb
      rw [List.mem_singleton.mp hb]
      intro he
      have hlt := (hrange ha a hmem).2
      rw [he] at hlt
      exact absurd hlt (UInt64.lt_irrefl _)
    · intro _ id hid
      rw [hids] at hid
      have hlt : x.2.nextAvailableId < y.2.nextAvailableId := by
        rw [hn,UInt64.lt_iff_toNat_lt,hone,hnx]
        omega
      obtain hid | hid := List.mem_append.mp hid
      · exact ⟨(hrange ha id hid).1,UInt64.lt_trans (hrange ha id hid).2 hlt⟩
      · rw [List.mem_singleton.mp hid]
        refine ⟨?_,hlt⟩
        intro h0
        rw [h0] at hnx
        simp at hnx

theorem Passed.numbered {x : Point × World} (hx : Passed x) (hfew : Few x.2.log) :
    Numbered x := by
  refine Passed.induct (I := fun x => Few x.2.log → Numbered x) ?_ ?_ hx hfew
  · intro env _
    exact ⟨rfl,Nat.le_refl _,fun _ => rfl,fun _ => List.nodup_nil,fun _ _ h => nomatch h⟩
  · intro x y hx hm ih hfew
    have hnum := ih (hfew.restrict hm.log)
    by_cases hy : y.1 = .dead
    · have hcount := hm.log.countP_le (p := Observation.accepts)
      have hann : announced y.2.log = announced x.2.log := by
        cases hm with
        | die hp hl hnew => simp [hl,announced_inner hnew]
        | @api p w w' hp h =>
          have hdead : p = .dead := hy
          rw [hdead] at hp
          exact hp.elim
        | _ => cases hy
      exact ⟨by rw [hann]; exact hnum.announced,by rw [hann]; exact Nat.le_trans hnum.length hcount,
        fun h => absurd hy h,fun h => absurd hy h,fun h => absurd hy h⟩
    · exact (hm.idMove hy).numbered hnum (hm.alive) hfew hm.log

/-! The poll group. -/

def fdKeys (cs : List (Option ClientInfo)) : List (Option Int) := keys (·.fd) cs

/-- The poll group holds the descriptors of the entries, and these are distinct. -/
structure Watched (cs : List (Option ClientInfo)) (g : PollGroup) : Prop where
  nodup : (fdKeys cs).reduceOption.Nodup
  poll : g.fds = (fdKeys cs).reduceOption

/-- What holds of the poll group and the sockets when no descriptor is 0. While events
are handled an entry may already be closed, but then it is marked. In the loop of the
sweep the group has lost the entries between first and i. -/
def Matched : Point × World → Prop
  | (.start,w) => w.server.pollGroup.fds = []
  | (.top,w) | (.accepting,w) | (.left,w) =>
    Watched w.server.clients w.server.pollGroup ∧ ∀ c ∈ entries w.server.clients, c.conn.socket ≠ 0
  | (.events _,w) | (.sweeping,w) =>
    Watched w.server.clients w.server.pollGroup ∧ ∀ c ∈ entries w.server.clients, c.isConnected = true → c.conn.socket ≠ 0
  | (.removing first _ i,w) => none ∈ w.server.clients.drop i ∨
    ((fdKeys w.server.clients).reduceOption.Nodup ∧
      w.server.pollGroup.fds.map some = (fdKeys w.server.clients).take first++(fdKeys w.server.clients).drop i ∧
      ∀ j c, j < first → w.server.clients[j]? = some (some c) → c.conn.socket ≠ 0)
  | _ => True

theorem Watched.same {cs cs' : List (Option ClientInfo)} {g g' : PollGroup} (h : Watched cs g)
    (hk : fdKeys cs' = fdKeys cs) (hp : g'.fds = g.fds) : Watched cs' g' :=
  ⟨by rw [hk]; exact h.nodup,by rw [hp,hk]; exact h.poll⟩

/-- What a handler does to the entries, position by position. -/
structure Kept (w w' : World) : Prop where
  keys : fdKeys w'.server.clients = fdKeys w.server.clients
  poll : w'.server.pollGroup.fds = w.server.pollGroup.fds
  entry : ∀ (j : Nat) (d : ClientInfo), w'.server.clients[j]? = some (some d) →
    ∃ c : ClientInfo, w.server.clients[j]? = some (some c) ∧ d.id = c.id ∧ d.fd = c.fd ∧
      d.conn = c.conn ∧ (d.isConnected = true → c.isConnected = true)
  empty : ∀ j, none ∈ w.server.clients.drop j → none ∈ w'.server.clients.drop j

theorem Kept.of_clients {w w' : World} (hcs : w'.server.clients = w.server.clients)
    (hp : w'.server.pollGroup.fds = w.server.pollGroup.fds) : Kept w w' :=
  ⟨by rw [fdKeys,hcs]; rfl,hp,fun j d hd => ⟨d,by rw [← hcs]; exact hd,rfl,rfl,rfl,id⟩,
    fun j h => by rw [hcs]; exact h⟩

theorem ApiStep.kept {w w' : World} (h : ApiStep w w') : Kept w w' := by
  cases h with
  | quiet h => exact .of_clients h.clients (by rw [h.pollGroup])
  | stopped => exact .of_clients rfl rfl
  | @marked i c h =>
    refine ⟨keys_set h rfl,rfl,?_,fun j hn => none_mem_drop_set h hn⟩
    intro j d hd
    obtain ⟨rfl,rfl⟩ | ⟨-,hd⟩ := getElem?_set_cases hd
    · exact ⟨c,h,rfl,rfl,rfl,fun hc => nomatch hc⟩
    · exact ⟨d,hd,rfl,rfl,rfl,id⟩

theorem Kept.watched {w w' : World} (h : Kept w w')
    (hw : Watched w.server.clients w.server.pollGroup) :
    Watched w'.server.clients w'.server.pollGroup :=
  hw.same h.keys h.poll

theorem Kept.sockets {w w' : World} (h : Kept w w')
    (hw : ∀ c ∈ entries w.server.clients, c.conn.socket ≠ 0) :
    ∀ c ∈ entries w'.server.clients, c.conn.socket ≠ 0 := by
  intro d hd
  obtain ⟨j,hj⟩ := mem_entries_iff.mp hd
  obtain ⟨c,hc,-,-,hconn,-⟩ := h.entry j d hj
  rw [hconn]
  exact hw c (mem_of_getElem? hc)

theorem Kept.connected {w w' : World} (h : Kept w w')
    (hw : ∀ c ∈ entries w.server.clients, c.isConnected = true → c.conn.socket ≠ 0) :
    ∀ c ∈ entries w'.server.clients, c.isConnected = true → c.conn.socket ≠ 0 := by
  intro d hd hdc
  obtain ⟨j,hj⟩ := mem_entries_iff.mp hd
  obtain ⟨c,hc,-,-,hconn,hcc⟩ := h.entry j d hj
  rw [hconn]
  exact hw c (mem_of_getElem? hc) (hcc hdc)

theorem Kept.matched {p : Point} {w w' : World} (hp : p.live) (h : Kept w w')
    (hx : Matched (p,w)) : Matched (p,w') := by
  cases p with
  | top => exact ⟨h.watched hx.1,h.sockets hx.2⟩
  | accepting => exact ⟨h.watched hx.1,h.sockets hx.2⟩
  | events es => exact ⟨h.watched hx.1,h.connected hx.2⟩
  | removing first n i =>
    obtain hn | ⟨hnodup,hpoll,hsock⟩ := hx
    · exact Or.inl (h.empty i hn)
    · refine Or.inr ⟨by rw [h.keys]; exact hnodup,by rw [h.poll,h.keys]; exact hpoll,?_⟩
      intro j d hj hd
      obtain ⟨c,hc,-,-,hconn,-⟩ := h.entry j d hd
      rw [hconn]
      exact hsock j c hj hc
  | _ => exact hp.elim

/-- When ::recv reports the end of a stream, the closed entry is the one that is marked. -/
theorem closed_connected {cs : List (Option ClientInfo)} {i j : Nat} {c d : ClientInfo}
    (hids : (entries cs).Pairwise fun a b => a.id ≠ b.id) (hi : cs[i]? = some (some c))
    (hj : (cs.set i (some { c with conn := {} }))[j]? = some (some d)) (hid : d.id = c.id)
    (hcs : ∀ e ∈ entries cs, e.isConnected = true → e.conn.socket ≠ 0) :
    ∀ e ∈ entries ((cs.set i (some { c with conn := {} })).set j
      (some { d with isConnected := false })), e.isConnected = true → e.conn.socket ≠ 0 := by
  have hsame : j = i := by
    by_contra hne
    obtain ⟨hij,-⟩ | ⟨-,hd⟩ := getElem?_set_cases hj
    · exact hne hij.symm
    · exact pairwise_at (fun _ _ h => h.symm) hd hi hne hids hid
  subst hsame
  intro e he hec
  rw [List.set_set] at he
  obtain rfl | he := mem_entries_set hi he
  · cases hec
  · exact hcs e he hec

theorem removeSocket_fds (g : PollGroup) (fd : Int) :
    (g.removeSocket fd).fds = g.fds.filter (· ≠ fd) := by
  simp only [PollGroup.removeSocket,PollGroup.fds,List.filter_map]
  rfl

/-- `remove_socket` takes exactly the entry at position i out of the group. -/
theorem removeSocket_at {g : PollGroup} {ks : List (Option Int)} {first i : Nat} {fd : Int}
    (hnodup : ks.reduceOption.Nodup) (hfirst : first ≤ i) (hi : ks[i]? = some (some fd))
    (hg : g.fds.map some = ks.take first++ks.drop i) :
    (g.removeSocket fd).fds.map some = ks.take first++ks.drop (i+1) := by
  obtain ⟨hlt,hget⟩ := List.getElem?_eq_some_iff.mp hi
  have hdrop : ks.drop i = some fd::ks.drop (i+1) := by rw [List.drop_eq_getElem_cons hlt,hget]
  have hsplit : ks = ks.take i++some fd::ks.drop (i+1) := by
    rw [← hdrop,List.take_append_drop]
  rw [hsplit,List.reduceOption_append,List.reduceOption_cons_of_some,
    List.nodup_append] at hnodup
  obtain ⟨-,hright,hcross⟩ := hnodup
  have hleft : some fd ∉ ks.take first := by
    intro h
    have hmem : some fd ∈ ks.take i := List.take_subset_take_left ks hfirst h
    exact hcross fd (List.reduceOption_mem_iff.mpr hmem) fd (by simp) rfl
  have hafter : some fd ∉ ks.drop (i+1) := fun h =>
    (List.nodup_cons.mp hright).1 (List.reduceOption_mem_iff.mpr h)
  have hfilter : (g.fds.filter (· ≠ fd)).map some = (g.fds.map some).filter (· ≠ some fd) := by
    rw [List.filter_map]
    congr 1
    apply List.filter_congr
    intro x _
    simp
  rw [removeSocket_fds,hfilter,hg,hdrop,List.filter_append,List.filter_cons_of_neg (by simp)]
  congr 1
  · exact List.filter_eq_self.mpr fun x hx => by simpa using fun h : x = some fd => hleft (h ▸ hx)
  · exact List.filter_eq_self.mpr fun x hx => by simpa using fun h : x = some fd => hafter (h ▸ hx)

theorem Passed.matched {x : Point × World} (hx : Passed x) (hfew : Few x.2.log)
    (hpos : Positive x.2.log) : Matched x := by
  refine Passed.induct (I := fun x => Few x.2.log → Positive x.2.log → Matched x) ?_ ?_ hx
    hfew hpos
  · intro env _ _
    rfl
  · intro x y hx hm ih hfew hpos
    have hbase := hx.base
    have hnum := hx.numbered (hfew.restrict hm.log)
    have h := ih (hfew.restrict hm.log) (hpos.restrict hm.log)
    cases hm with
    | @opened w w' a hs hn hl =>
      obtain ⟨hcs,-⟩ := hbase
      refine ⟨⟨?_,?_⟩,?_⟩
      · simp [fdKeys,keys,hs,hcs]
      · have hg : w.server.pollGroup.fds = [] := h
        simp [fdKeys,keys,hs,hcs,hg]
      · simp [hs,hcs]
    | api hp ha => exact ha.kept.matched hp h
    | enter hrun => exact h
    | leave hrun => exact h
    | @refused w w' hrun hq =>
      have hk : Kept w w' := .of_clients hq.clients (by rw [hq.pollGroup])
      exact ⟨hk.watched h.1,hk.sockets h.2⟩
    | @registered w w1 fd conn p hrun hnew hconn hp hfds hs hn hl =>
      have hcs : w1.server.clients =
          w.server.clients++[some ⟨w.nextAvailableId,conn,fd,true⟩] := by rw [hs]
      have hne : fd ≠ 0 := by
        intro h0
        have hz := hpos ⟨.sys (.accept w.server.acceptor.socket fd),p⟩ (by simp [hl])
        simp [Observation.acceptsZero,h0] at hz
      have hfresh : fd ∉ (fdKeys w.server.clients).reduceOption := by
        intro hmem
        rw [fdKeys,← entries_map] at hmem
        obtain ⟨c,hc,hfd⟩ := List.mem_map.mp hmem
        have hsock := (hbase.1.socket c hc).resolve_left (h.2 c hc)
        have hopen := hbase.2.isOpen c hc (h.2 c hc)
        rw [hsock,hfd] at hopen
        exact hnew.2 hopen
      have hkeys : (fdKeys w1.server.clients).reduceOption =
          (fdKeys w.server.clients).reduceOption++[fd] := by
        simp [hcs,fdKeys,keys,List.reduceOption_append]
      refine ⟨⟨?_,?_⟩,?_⟩
      · change (fdKeys w1.server.clients).reduceOption.Nodup
        rw [hkeys,List.nodup_append]
        refine ⟨h.1.nodup,by simp,?_⟩
        intro a ha b hb hab
        rw [List.mem_singleton.mp hb] at hab
        exact hfresh (hab ▸ ha)
      · change w1.server.pollGroup.fds = (fdKeys w1.server.clients).reduceOption
        rw [hkeys,← h.1.poll,hs]
        simp [PollGroup.addSocket,PollGroup.fds]
      · change ∀ c ∈ entries w1.server.clients, c.conn.socket ≠ 0
        intro c hc
        rw [hcs,entries_concat] at hc
        obtain hc | hc := List.mem_append.mp hc
        · exact h.2 c hc
        · rw [List.mem_singleton.mp hc]
          exact hconn ▸ hne
    | @polled w w' es hp =>
      obtain ⟨g,hg,hs⟩ := hp.server
      have hk : Kept w w' := .of_clients (by rw [hs]) (by rw [hs]; exact hg)
      exact ⟨hk.watched h.1,hk.connected fun c hc _ => h.2 c hc⟩
    | ignored => exact h
    | @rejected w s e es i j c d ec hrun hf hfds hcalls hd =>
      have hk := ApiStep.marked (w := (Net.putSys w s).withEc ec) (Server.find_found hd).1
      exact hk.kept.matched (p := .events es) trivial ⟨h.1,h.2⟩
    | @closed w s e es i j flags c d ec hrun hf hopen hfds hcalls hd =>
      obtain ⟨hj,hid⟩ := Server.find_found hd
      have hi := (Server.find_found hf).1
      refine ⟨h.1.same ?_ rfl,?_⟩
      · have hc : fdKeys (w.server.clients.set i (some { c with conn := {} })) =
            fdKeys w.server.clients := keys_set hi rfl
        rw [← hc]
        exact keys_set hj rfl
      · exact closed_connected (List.pairwise_map.mp (hnum.nodup (fun h => by cases h))) hi hj
          (by simpa using hid) h.2
    | delivered hrun hf hopen hne hsize hec hfds hcalls => exact h
    | sweep => exact h
    | @skip w hd =>
      refine ⟨h.1,fun c hc => h.2 c hc ?_⟩
      by_contra hcc
      have := hbase.1.flagged c hc (by simpa using hcc)
      rw [hd] at this
      cases this
    | @parted w kept gone hcs hkept hgone =>
      have hnn : none ∉ fdKeys w.server.clients := fun hn =>
        hbase.2.noNull (none_mem_keys.mp hn)
      refine Or.inr ⟨h.1.nodup,?_,?_⟩
      · rw [h.1.poll,List.take_append_drop,map_some_reduceOption hnn]
      · intro j c hj hc
        have hmem : some c ∈ kept := by
          rw [hcs,List.getElem?_append_left hj] at hc
          exact List.mem_of_getElem? hc
        refine h.2 c ?_ (hkept c hmem)
        rw [hcs]
        exact List.reduceOption_mem_iff.mpr (List.mem_append_left _ hmem)
    | moved hflag hnone hsub hgap hs hn hl => exact Or.inl (by simp [hs,hnone])
    | @disconnected w w1 first n i c conn hi hconn hs hn hfds hl =>
      have hcs : w1.server.clients = w.server.clients.set i (some { c with conn := conn }) := by
        rw [hs]
      have hkeys : fdKeys w1.server.clients = fdKeys w.server.clients := by
        rw [hcs]
        exact keys_set hi rfl
      change none ∈ w1.server.clients.drop (i+1) ∨ _
      obtain hnone | ⟨hnodup,hpoll,hsock⟩ := h
      · exact Or.inl (by rw [hcs]; exact none_mem_drop_succ hi hnone)
      · have hfirst := hbase.2.first_le
        have hkey : (fdKeys w.server.clients)[i]? = some (some c.fd) := by
          simp [fdKeys,keys,hi]
        refine Or.inr ⟨?_,?_,?_⟩
        · change (fdKeys w1.server.clients).reduceOption.Nodup
          rw [hkeys]
          exact hnodup
        · change w1.server.pollGroup.fds.map some =
            (fdKeys w1.server.clients).take first++(fdKeys w1.server.clients).drop (i+1)
          rw [hkeys,hs]
          exact removeSocket_at hnodup hfirst hkey hpoll
        · change ∀ j d, j < first → w1.server.clients[j]? = some (some d) → d.conn.socket ≠ 0
          intro j d hj hd
          rw [hcs,List.getElem?_set_ne (by omega)] at hd
          exact hsock j d hj hd
    | @erased w first i =>
      have hlen : w.server.clients.length = i := by simpa using hbase.2.length
      have hdrop : w.server.clients.drop i = [] := List.drop_of_length_le (by omega)
      obtain hnone | ⟨hnodup,hpoll,hsock⟩ := h
      · rw [hdrop] at hnone
        exact absurd hnone List.not_mem_nil
      · have htake : fdKeys (w.server.clients.take first) =
            (fdKeys w.server.clients).take first := by simp [fdKeys,keys]
        have hkeys : (fdKeys w.server.clients).drop i = [] := by
          rw [fdKeys,keys,← List.map_drop,hdrop]
          rfl
        refine ⟨⟨?_,?_⟩,?_⟩
        · change (fdKeys (w.server.clients.take first)).reduceOption.Nodup
          rw [htake]
          exact hnodup.sublist ((List.take_sublist first _).filterMap id)
        · change w.server.pollGroup.fds = (fdKeys (w.server.clients.take first)).reduceOption
          rw [hkeys,List.append_nil] at hpoll
          rw [htake,← hpoll,reduceOption_map_some]
        · change ∀ c ∈ entries (w.server.clients.take first), c.conn.socket ≠ 0
          intro c hc
          obtain ⟨j,hj⟩ := mem_entries_iff.mp hc
          rw [List.getElem?_take] at hj
          split at hj
          · exact hsock j c ‹_› hj
          · cases hj
    | shut ha hs hn hl hnew hf => trivial
    | die hp hl hnew => trivial

/-! The history. -/

/-- The points at which the registry is looked at: the start of an iteration and the
entry of a connect or data handler. -/
def Event.isEntry : Event → Prop
  | .iteration | .callback (.connect _) | .callback (.dataReceive _ _) => True
  | _ => False

theorem Event.isInner.not_entry {e : Event} {b : Bool} (h : e.isInner b) : ¬e.isEntry := by
  cases e <;> simp_all [isInner,isEntry]

structure Entry (x y : Point × World) (o : Observation) : Prop where
  state : o.state = y.2.toProcess
  point : y.1 = .accepting ∨ ∃ es, y.1 = .events es
  top : o.event = .iteration → x.1 = .top ∧ y.2.toProcess = x.2.toProcess

theorem entry_inner {x y : Point × World} {new : List Observation} {b : Bool}
    (h : ∀ o ∈ new, o.event.isInner b) : ∀ o ∈ new, o.event.isEntry → Entry x y o :=
  fun o ho he => absurd he (h o ho).not_entry

theorem entry_marked {x y : Point × World} {calls : List SysCall} {p q : Process}
    {id : ClientId} : ∀ o ∈ calls.map (fun c => (⟨.sys c,p⟩ : Observation))++[⟨.marked id,q⟩],
      o.event.isEntry → Entry x y o := by
  intro o ho he
  obtain ho | ho := List.mem_append.mp ho
  · obtain ⟨c,-,rfl⟩ := List.mem_map.mp ho
    exact he.elim
  · rw [List.mem_singleton.mp ho] at he
    exact he.elim

theorem Move.entry {x y : Point × World} (h : Move x y) :
    ∃ new, y.2.log = x.2.log++new ∧ ∀ o ∈ new, o.event.isEntry → Entry x y o := by
  cases h with
  | opened hs hn hl => exact ⟨[],by simp [hl],by simp⟩
  | api hp h =>
    cases h with
    | quiet h =>
      obtain ⟨new,hl,hn⟩ := h.log
      exact ⟨new,hl,entry_inner hn⟩
    | marked h => exact ⟨_,rfl,by simp [Event.isEntry]⟩
    | stopped => exact ⟨_,rfl,by simp [Event.isEntry]⟩
  | enter h =>
    refine ⟨_,rfl,?_⟩
    intro o ho _
    rw [List.mem_singleton.mp ho]
    exact ⟨rfl,Or.inl rfl,fun _ => ⟨rfl,rfl⟩⟩
  | leave h => exact ⟨[],by simp,by simp⟩
  | refused hrun h =>
    obtain ⟨new,hl,hn⟩ := h.log
    exact ⟨new,hl,entry_inner hn⟩
  | @registered w w1 fd conn p hrun hnew hconn hp hfds hs hn hl =>
    refine ⟨_,by rw [World.note_log,hl,List.append_assoc],?_⟩
    intro o ho he
    obtain rfl | ho := List.mem_cons.mp ho
    · exact he.elim
    · rw [List.mem_singleton.mp ho]
      exact ⟨rfl,Or.inl rfl,fun h => nomatch h⟩
  | polled h =>
    obtain ⟨pfds,n,hl⟩ := h.log
    exact ⟨_,hl,by simp [Event.isEntry]⟩
  | ignored => exact ⟨[],by simp,by simp⟩
  | rejected hrun hf hfds hcalls hd =>
    exact ⟨_,List.append_assoc _ _ _,entry_marked⟩
  | closed hrun hf hopen hfds hcalls hd =>
    exact ⟨_,List.append_assoc _ _ _,entry_marked⟩
  | @delivered w s e es i flags c bytes hrun hf hopen hne hsize hec hfds hcalls =>
    refine ⟨_,List.append_assoc _ _ _,?_⟩
    intro o ho he
    obtain ho | ho := List.mem_append.mp ho
    · obtain ⟨c,-,rfl⟩ := List.mem_map.mp ho
      exact he.elim
    · rw [List.mem_singleton.mp ho]
      exact ⟨rfl,Or.inr ⟨es,rfl⟩,fun h => nomatch h⟩
  | sweep => exact ⟨_,rfl,by simp [Event.isEntry]⟩
  | skip h => exact ⟨[],by simp,by simp⟩
  | parted h hkept hgone => exact ⟨[],by simp,by simp⟩
  | moved hflag hnone hsub hgap hs hn hl =>
    obtain ⟨new,hl,hnew⟩ := hl
    exact ⟨new,hl,entry_inner (hnew.isInner true)⟩
  | disconnected h hconn hs hn hfds hl =>
    obtain ⟨-,hl⟩ | ⟨-,p,-,hl⟩ := hl
    · exact ⟨_,by rw [World.note_log,hl],by simp [Event.isEntry]⟩
    · exact ⟨_,by rw [World.note_log,hl,List.append_assoc],by simp [Event.isEntry]⟩
  | erased => exact ⟨[],by simp,by simp⟩
  | shut ha hs hn hl hnew hf => exact ⟨_,hl,entry_inner (hnew.isInner true)⟩
  | die hp hl hnew => exact ⟨_,hl,entry_inner hnew⟩

theorem coherent_at {p : Point} {w : World} (hp : p = .accepting ∨ ∃ es, p = .events es)
    (hbase : Base (p,w)) (hnum : Numbered (p,w)) (hm : Matched (p,w)) :
    Coherent w.toProcess := by
  have hlive : p ≠ .dead := by
    obtain rfl | ⟨es,rfl⟩ := hp <;> exact fun h => nomatch h
  have hsi : Sound w ∧ Intact w := by
    obtain rfl | ⟨es,rfl⟩ := hp <;> exact hbase
  have hwc : Watched w.server.clients w.server.pollGroup ∧
      ∀ c ∈ entries w.server.clients, c.isConnected = true → c.conn.socket ≠ 0 := by
    obtain rfl | ⟨es,rfl⟩ := hp
    · exact ⟨hm.1,fun c hc _ => hm.2 c hc⟩
    · exact hm
  obtain ⟨⟨hap,hsock,hflag⟩,hnn,hopen⟩ := hsi
  obtain ⟨⟨hnodup,hpoll⟩,hconn⟩ := hwc
  rw [fdKeys,← entries_map] at hnodup hpoll
  refine ⟨hnn,hnum.nodup hlive,?_,hnodup,hpoll,?_,hflag⟩
  · intro c hc
    exact hnum.range hlive c.id (List.mem_map_of_mem hc)
  · intro c hc hcc
    have h0 := hconn c hc hcc
    have hs := (hsock c hc).resolve_left h0
    exact ⟨by simpa [Connection.isConnected] using h0,hs,hs ▸ hopen c hc h0⟩

/-- At the start of an iteration and at the entry of every connect and data handler
the registry is coherent, and at the start of an iteration every entry, marked or not,
owns an open socket. -/
theorem Passed.entries_coherent {x : Point × World} (hx : Passed x) (hfew : Few x.2.log)
    (hpos : Positive x.2.log) : ∀ o ∈ x.2.log, o.event.isEntry →
      Coherent o.state ∧ (o.event = .iteration → ∀ c ∈ entries o.state.server.clients,
        Owns o.state c) := by
  refine Passed.induct (I := fun x => Few x.2.log → Positive x.2.log → ∀ o ∈ x.2.log,
    o.event.isEntry → Coherent o.state ∧ (o.event = .iteration →
      ∀ c ∈ entries o.state.server.clients, Owns o.state c)) ?_ ?_ hx hfew hpos
  · intro env _ _ o ho
    exact absurd ho List.not_mem_nil
  · intro x y hx hm ih hfew hpos o ho he
    obtain ⟨new,hl,hnew⟩ := hm.entry
    rw [hl] at ho
    obtain ho | ho := List.mem_append.mp ho
    · exact ih (hfew.restrict hm.log) (hpos.restrict hm.log) o ho he
    · obtain ⟨hstate,hpoint,htop⟩ := hnew o ho he
      have hy : Passed y := hx.move hm
      have hco := coherent_at hpoint hy.base (hy.numbered hfew) (hy.matched hfew hpos)
      rw [hstate]
      refine ⟨hco,?_⟩
      intro hit c hc
      obtain ⟨hxtop,hsame⟩ := htop hit
      obtain ⟨p,w⟩ := x
      obtain rfl : p = .top := hxtop
      have hbase : Sound w ∧ Intact w := hx.base
      have hm : Matched (.top,w) :=
        hx.matched (hfew.restrict hm.log) (hpos.restrict hm.log)
      rw [hsame] at hc ⊢
      have h0 := hm.2 c hc
      have hs := (hbase.1.socket c hc).resolve_left h0
      exact ⟨by simpa [Connection.isConnected] using h0,hs,hs ▸ hbase.2.isOpen c hc h0⟩

/-- Registry coherence of every run. -/
theorem Environment.registry_coherent (env : Environment) (fuel : Nat)
    (hfew : Few (env.log fuel)) (hpos : Positive (env.log fuel)) :
    ∀ o ∈ env.log fuel, o.event.isEntry → Coherent o.state ∧
      (o.event = .iteration → ∀ c ∈ entries o.state.server.clients, Owns o.state c) := by
  obtain ⟨p,hp,-⟩ := env.passed fuel
  exact hp.entries_coherent hfew hpos

namespace Environment

def startup : List Answer :=
  [.getaddrinfo (some [(6,inetAddress 0 0 0 0)]),.socket (.ok 3),.setsockopt (.ok ()),
    .bind (.ok ()),.listen (.ok ()),.getname (.ok ()) (inetAddress 0 0 0 0),.getsockopt (.ok ()) 6]

/-- A pending connection that gets the descriptor fd. -/
def pending (fd : Int) : List Answer :=
  [.poll (.ok [1]),.accept (.ok fd) (inetAddress 127 0 0 1),
    .getname (.ok ()) (inetAddress 127 0 0 1),.getsockopt (.ok ()) 6]

/-- Two clients; the first one sends three bytes, the handler broadcasts them, and the
send to the second client fails after two bytes. -/
def broadcast : Environment where
  port := 5000
  kernel := ⟨[0,1,2],0,[]⟩
  answers := startup++pending 4++pending 5++[.poll (.ok [0]),.poll (.ok [1,0]),
    .recv (.ok [7,8,9]),.send (.ok 3),.send (.ok 2),.send (.error ⟨32,by decide⟩),
    .shutdown (.ok ()),.close (.ok ()),.poll (.ok [0]),.poll (.ok [0])]
  handlers := [[],[],[.messageAllClients (.ofList [7,8,9]) 0],[]]
  stops := List.replicate 10 false

end Environment

theorem Environment.registry_coherent_broadcast :
    (Few (broadcast.log 5) ∧ Positive (broadcast.log 5)) ∧
    ∀ o ∈ broadcast.log 5, o.event.isEntry → Coherent o.state ∧
      (o.event = .iteration → ∀ c ∈ entries o.state.server.clients, Owns o.state c) := by
  have hfew : Few (broadcast.log 5) := by decide +kernel
  have hpos : Positive (broadcast.log 5) := by decide +kernel
  exact ⟨⟨hfew,hpos⟩,broadcast.registry_coherent 5 hfew hpos⟩

end Yonaa
