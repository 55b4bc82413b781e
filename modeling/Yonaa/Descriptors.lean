import Yonaa.Objects

/-! The descriptors of a pool of objects: who may close them, and when one is lost. -/
namespace Yonaa
namespace Pool
open Machine Ownership
variable {κ : Type} [DecidableEq κ]

/-- Exclusive ownership, in one state and for every operation that may come next. -/
structure Owned (p : Pool κ) : Prop where
  unique : ∀ i j o o', p.objects i = some o → p.objects j = some o' → o.socket ≠ 0 →
    o.socket = o'.socket → i = j
  live : ∀ i o, p.objects i = some o → o.socket ≠ 0 → o.socket ∈ p.sys.kernel.fds
  /-- A call is made on the open descriptor of the object whose function makes it. -/
  calls : ∀ a calls, ((exec a).run p).2.sys.calls = p.sys.calls++calls → ∀ x ∈ calls,
    ∀ fd, x.on = some fd → fd ≠ 0 ∧ fd ∈ p.sys.kernel.fds ∧
      ∃ o, p.objects a.subject = some o ∧ o.socket = fd
  /-- A close is the last call of its operation and the only close; after it nobody holds
  the descriptor. -/
  closes : ∀ a calls, ((exec a).run p).2.sys.calls = p.sys.calls++calls → ∀ fd,
    .close fd ∈ calls → (∃ l, calls = l++[.close fd] ∧ ∀ fd', .close fd' ∉ l) ∧
      ∀ i o, ((exec a).run p).2.objects i = some o → o.socket ≠ fd

section Held
variable {p t : Pool κ} {i : κ} {fd : Int} {a : Act κ}

omit [DecidableEq κ] in
theorem held_iff : p.ledger.held i = some fd ↔
    ∃ o, p.objects i = some o ∧ o.socket = fd ∧ fd ≠ 0 := by
  constructor
  · intro h
    obtain ⟨o,ho,hfd⟩ := Option.bind_eq_some_iff.mp h
    by_cases h0 : o.socket = 0
    · rw [Object.held_of_zero h0] at hfd
      cases hfd
    · rw [Object.held_of_ne h0] at hfd
      cases hfd
      exact ⟨o,ho,rfl,h0⟩
  · intro h
    obtain ⟨o,ho,rfl,h0⟩ := h
    rw [held_object ho,Object.held_of_ne h0]

theorem Done.effect {l : List SysCall} {m : Ledger κ Int} (h : Done p a l m) :
    Effect p.ledger m := by
  cases h with
  | same _ _ h =>
    rw [h]
    exact .same
  | missed _ _ hlive _ h =>
    rw [h]
    exact .spill hlive
  | created _ _ hfd hmem hlive _ h =>
    rw [h]
    exact .obtain hfd hmem hlive
  | zero _ _ hlive h =>
    rw [h]
    exact .spill hlive
  | @moved k j _ _ h =>
    rw [h]
    exact .move k j
  | closed _ hheld _ h =>
    rw [h]
    exact .release hheld

/-- An operation closes nothing, or its last call closes the descriptor of its object. -/
theorem Done.close {l : List SysCall} {m : Ledger κ Int} (h : Done p a l m)
    (hmem : .close fd ∈ l) : p.ledger.held a.subject = some fd ∧
      (∃ l', l = l'++[.close fd] ∧ ∀ fd', .close fd' ∉ l') ∧
      m.held = Function.update p.ledger.held a.subject none := by
  cases h with
  | same _ hno _ => exact absurd hmem (hno fd)
  | missed _ hno _ _ _ =>
    rw [hno] at hmem
    cases hmem
  | created _ hno _ _ _ _ _ => exact absurd hmem (hno fd)
  | zero _ hno _ _ => exact absurd hmem (hno fd)
  | moved _ hno _ =>
    rw [hno] at hmem
    cases hmem
  | closed _ hheld hcl h =>
    obtain ⟨l',rfl,hno⟩ := hcl
    obtain hmem | hmem := List.mem_append.mp hmem
    · exact absurd hmem (hno fd)
    · cases List.mem_singleton.mp hmem
      exact ⟨hheld,⟨l',rfl,hno⟩,by rw [h]⟩

theorem step_done (h : step p a = some t) : ∃ l, t.sys.calls = p.sys.calls++l ∧
    t.sys.answers <:+ p.sys.answers ∧ Done p a l t.ledger := by
  have hp := exec_performed p a
  unfold step at h
  generalize (exec a).run p = r at h hp
  cases hp with
  | done hcalls hown hans hd =>
    cases h
    exact ⟨_,hcalls,hans,hd⟩
  | cut => cases h

theorem exclusive_step (hp : Exclusive p.ledger) (h : step p a = some t) :
    Exclusive t.ledger := by
  obtain ⟨l,-,-,hd⟩ := step_done h
  exact hd.effect.exclusive hp

theorem owned_of_exclusive (hp : Exclusive p.ledger) : Owned p := by
  constructor
  · intro i j o o' hi hj h0 he
    refine hp.unique i j o.socket (held_iff.mpr ⟨o,hi,rfl,h0⟩) ?_
    exact held_iff.mpr ⟨o',hj,he.symm,h0⟩
  · intro i o hi h0
    exact hp.live i o.socket (held_iff.mpr ⟨o,hi,rfl,h0⟩)
  · intro a calls hcalls x hx fd hon
    have hown : p.Own a calls := by
      have hperf := exec_performed p a
      generalize (exec a).run p = r at hcalls hperf
      cases hperf with
      | done hc hown _ _ => rwa [List.append_cancel_left (hcalls.symm.trans hc)]
      | cut hc hown _ => rwa [List.append_cancel_left (hcalls.symm.trans hc)]
    have hheld := hown x hx fd hon
    obtain ⟨o,ho,hs,h0⟩ := held_iff.mp hheld
    exact ⟨h0,hp.live a.subject fd hheld,o,ho,hs⟩
  · intro a calls hcalls fd hmem
    have hperf := exec_performed p a
    generalize (exec a).run p = r at hcalls hperf ⊢
    cases hperf with
    | @done t l hc hown hans hd =>
      rw [List.append_cancel_left (hcalls.symm.trans hc)] at hmem ⊢
      obtain ⟨hheld,hlast,hm⟩ := hd.close hmem
      refine ⟨hlast,?_⟩
      intro i o hi hs
      have h0 : fd ≠ 0 := by
        obtain ⟨-,-,-,h0⟩ := held_iff.mp hheld
        exact h0
      have hti : t.ledger.held i = some fd := held_iff.mpr ⟨o,hi,hs,h0⟩
      rw [hm] at hti
      exact hp.released hheld i hti
    | cut hc hown hno =>
      rw [List.append_cancel_left (hcalls.symm.trans hc)] at hmem
      exact absurd hmem (hno fd)

end Held

omit [DecidableEq κ] in
theorem exclusive_initial (kernel : Kernel) (answers : List Answer) :
    Exclusive (initial kernel answers : Pool κ).ledger :=
  ⟨fun _ _ _ h _ => (by cases h),fun _ _ h => (by cases h)⟩

/-- Exclusive descriptor ownership in every state of every run. -/
theorem exclusive_ownership (kernel : Kernel) (answers : List Answer) (acts : List (Act κ)) :
    Always step Owned (initial kernel answers) acts := by
  have htrue : Meets step (fun _ _ => True) (initial kernel answers : Pool κ) acts :=
    meets_of_forall (fun _ _ => trivial) _ acts
  refine htrue.always (I := fun p => Exclusive p.ledger) ?_ ?_ (exclusive_initial kernel answers)
  · intro p a t hp _ h
    exact exclusive_step hp h
  · intro p hp
    exact owned_of_exclusive hp

/-! What is lost: an operation that overwrites the descriptor its object holds. -/

/-- Every descriptor that was opened since the start and is still open is held by a live
object; so none is open when all objects are destroyed. -/
structure Reclaimed (started : List Int) (p : Pool κ) : Prop where
  held : ∀ fd ∈ p.sys.kernel.fds, fd ∉ started →
    ∃ k o, p.objects k = some o ∧ o.held = some fd
  destroyed : (∀ k, p.objects k = none) → ∀ fd ∈ p.sys.kernel.fds, fd ∈ started

/-- What the runs keep that lose nothing. -/
structure Reclaiming (started : List Int) (p : Pool κ) : Prop where
  exclusive : Exclusive p.ledger
  foreign : Foreign { fd | fd ∈ started } p.ledger
  accounted : Accounted { fd | fd ∈ started } p.ledger
  positive : ∀ fd ∈ p.sys.answers.filterMap Answer.descriptor, 0 < fd

section Reclaiming
variable {started : List Int} {p t : Pool κ} {a : Act κ}

omit [DecidableEq κ] in
theorem reclaimed_iff : Reclaimed started p ↔ Accounted { fd | fd ∈ started } p.ledger := by
  constructor
  · intro h fd hfd hnew
    obtain ⟨k,o,ho,hs⟩ := h.held fd hfd hnew
    exact ⟨k,Option.bind_eq_some_iff.mpr ⟨o,ho,hs⟩⟩
  · intro h
    constructor
    · intro fd hfd hnew
      obtain ⟨k,hk⟩ := h fd hfd hnew
      obtain ⟨o,ho,hs⟩ := Option.bind_eq_some_iff.mp hk
      exact ⟨k,o,ho,hs⟩
    · intro hnone fd hfd
      refine h.closed (fun k => ?_) hfd
      change (p.objects k).bind Object.held = none
      rw [hnone k]
      rfl

/-- An operation accounts for every descriptor exactly if it overwrites none. -/
theorem Reclaiming.accounted_iff (hp : Reclaiming started p) (ht : p.Tidy a)
    (h : step p a = some t) : Accounted { fd | fd ∈ started } t.ledger ↔ p.Spares a := by
  obtain ⟨l,-,-,hd⟩ := step_done h
  cases hd with
  | same ha _ hm =>
    rw [hm]
    exact ⟨fun _ => ha,fun _ => hp.accounted⟩
  | @missed live ha _ hlive hnew hm =>
    have he : live = p.ledger.live := by
      refine Set.Subset.antisymm ?_ hlive
      intro fd hfd
      by_contra hno
      obtain ⟨hmem,hzero⟩ := hnew fd hfd hno
      exact (hp.positive fd hmem).ne' (hzero ht)
    rw [hm,he]
    exact ⟨fun _ => ha,fun _ => hp.accounted⟩
  | @created live k fd ha _ hfd hmem hlive htidy hm =>
    have he : live = insert fd p.ledger.live := by
      refine Set.Subset.antisymm (htidy ht) ?_
      exact Set.insert_subset hmem hlive
    rw [hm,he,ha]
    exact hp.accounted.obtain_iff hp.exclusive hp.foreign hfd
  | zero hzero _ _ _ => exact absurd rfl (hp.positive 0 hzero).ne
  | @moved k j ha _ hm =>
    rw [hm,ha]
    exact hp.accounted.move_iff hp.exclusive hp.foreign k j
  | closed ha hheld _ hm =>
    rw [hm]
    exact ⟨fun _ => ha,fun _ => hp.accounted.release hheld⟩

theorem Reclaiming.step (hp : Reclaiming started p) (ht : p.Tidy a)
    (h : step p a = some t) (ha : p.Spares a) : Reclaiming started t := by
  have haccounted := (hp.accounted_iff ht h).mpr ha
  obtain ⟨l,-,hans,hd⟩ := step_done h
  refine ⟨hd.effect.exclusive hp.exclusive,hd.effect.foreign hp.foreign,haccounted,?_⟩
  intro fd hfd
  exact hp.positive fd ((hans.sublist.filterMap _).subset hfd)

end Reclaiming

/-- The descriptors are reclaimed throughout a run exactly if no operation overwrites the
descriptor of its object. The kernel hands out positive descriptors, and the `create`
functions leave no other descriptor open. -/
theorem reclaimed_iff_spared {kernel : Kernel} {answers : List Answer} {acts : List (Act κ)}
    {t : Pool κ} (hpos : ∀ fd ∈ answers.filterMap Answer.descriptor, 0 < fd)
    (htidy : Meets step Tidy (initial kernel answers) acts)
    (h : run step (initial kernel answers) acts = some t) :
    Always step (Reclaimed kernel.fds) (initial kernel answers) acts ↔
      Meets step Spares (initial kernel answers) acts := by
  refine always_iff_meets (I := Reclaiming kernel.fds) ?_ ?_ ?_ ?_ htidy h
  · intro p hp
    exact reclaimed_iff.mpr hp.accounted
  · intro p a t hp ht h hr
    exact (hp.accounted_iff ht h).mp (reclaimed_iff.mp hr)
  · intro p a t hp ht h ha
    exact hp.step ht h ha
  · refine ⟨exclusive_initial kernel answers,⟨fun _ h => h,fun _ _ h => (by cases h)⟩,?_,hpos⟩
    intro fd hfd hnew
    exact absurd hfd hnew

def reached (fd : Int) : List Answer :=
  [.socket (.ok fd),.connect (.ok ()),.getname (.ok ()) (inetAddress 127 0 0 1),
    .getsockopt (.ok ()) 6,.getname (.ok ()) (inetAddress 127 0 0 1),.getsockopt (.ok ()) 6]

/-- One connection that is opened, moved to itself and destroyed, or only disconnected. -/
def selfMove : List (Act Unit) :=
  [.connection (),.connect () [.fromNativeAddress 6 (inetAddress 127 0 0 1)] .clear,
    .moveAssign () (),.destroy ()]

def tidyUse : List (Act Unit) :=
  [.connection (),.connect () [.fromNativeAddress 6 (inetAddress 127 0 0 1)] .clear,
    .disconnect (),.moveAssign () (),.destroy ()]

def oneSocket : List Answer := reached 3++[.shutdown (.ok ()),.close (.ok ())]

theorem reclaimed_tidyUse :
    (∃ t, run step (initial ⟨[0],0,[]⟩ oneSocket) tidyUse = some t ∧ t.sys.kernel.fds = [0]) ∧
    Always step (Reclaimed [0]) (initial ⟨[0],0,[]⟩ oneSocket) tidyUse := by
  have h : ∃ t, run step (initial ⟨[0],0,[]⟩ oneSocket) tidyUse = some t ∧
      t.sys.kernel.fds = [0] := ⟨_,rfl,rfl⟩
  refine ⟨h,?_⟩
  obtain ⟨t,ht,-⟩ := h
  have htidy : Meets step Tidy (initial ⟨[0],0,[]⟩ oneSocket) tidyUse :=
    .cons rfl trivial <| .cons rfl (by decide) <| .cons rfl trivial <| .cons rfl trivial <|
      .cons rfl trivial trivial
  refine (reclaimed_iff_spared (by decide) htidy ht).mpr ?_
  exact .cons rfl trivial <| .cons rfl (Or.inl rfl) <| .cons rfl trivial <| .cons rfl rfl <|
    .cons rfl trivial trivial

/-- The descriptor 3 stays open when the only object is destroyed. -/
theorem selfMove_leaks : (∀ fd ∈ oneSocket.filterMap Answer.descriptor, 0 < fd) ∧
    Meets step Tidy (initial ⟨[0],0,[]⟩ oneSocket) selfMove ∧
    ¬Always step (Reclaimed [0]) (initial ⟨[0],0,[]⟩ oneSocket) selfMove := by
  refine ⟨by decide,?_,?_⟩
  · exact .cons rfl trivial <| .cons rfl (by decide) <| .cons rfl trivial <|
      .cons rfl trivial trivial
  · intro hall
    have h : ∃ t, run step (initial ⟨[0],0,[]⟩ oneSocket) selfMove = some t ∧
        t.objects () = none ∧ t.sys.kernel.fds = [3,0] := ⟨_,rfl,rfl,rfl⟩
    obtain ⟨t,ht,hnone,hfds⟩ := h
    have hmem := (hall.last ht).destroyed (fun _ => hnone) 3 (by rw [hfds]; decide)
    exact absurd hmem (by decide)

end Pool
end Yonaa
