import Yonaa.ClientRuns

/-! How often a client reports a disconnect, and what the reports depend on. -/
namespace Yonaa
namespace Client
open Machine

def Event.isDisconnect : Event → Bool
  | .disconnect _ => true
  | _ => false

def reports (log : List Event) : Nat := log.countP Event.isDisconnect

/-- `on_disconnect_` is never called before `on_connect_` and at most once after it. -/
structure ReportedOnce (log : List Event) : Prop where
  after : ∀ pre caller, pre++[.disconnect caller] <+: log → .connect ∈ pre
  once : reports log ≤ 1

/-- The network thread does not report a disconnect from its loop. -/
def QuietAt (c : Client) : Point → Prop
  | .checking => c.conn.isConnected = true
  | .received data => c.ec.isSet = false ∧ data.size ≠ 0
  | _ => True

/-- The act finds no error in `ec_` and the connection open, where it would report a
disconnect otherwise. -/
def Quiet (s : State) : Act → Prop
  | .check => s.world.client.ec.isSet = false
  | .net => QuietAt s.world.client s.point
  | _ => True

instance (c : Client) : (p : Point) → Decidable (QuietAt c p)
  | .checking => inferInstanceAs (Decidable (c.conn.isConnected = true))
  | .received data => inferInstanceAs (Decidable (c.ec.isSet = false ∧ data.size ≠ 0))
  | .absent | .resolving | .resolved _ | .connecting _ | .connected | .announcing | .head
  | .polling | .receiving | .closing | .leaving | .ended | .exited => isTrue trivial

instance (s : State) : (a : Act) → Decidable (Quiet s a)
  | .check => inferInstanceAs (Decidable (s.world.client.ec.isSet = false))
  | .net => inferInstanceAs (Decidable (QuietAt s.world.client s.point))
  | .connect _ _ | .disconnect | .send _ _ | .destroy => isTrue trivial

def ends (p : Point) : Nat := if p = .ended then 1 else 0

/-- `on_connect_` was called before the thread came here. -/
def Point.isPast : Point → Prop
  | .absent | .resolving | .resolved _ | .connecting _ | .connected | .announcing => False
  | .exited => False
  | _ => True

@[simp] theorem reports_append (log new : List Event) :
    reports (log++new) = reports log+reports new := List.countP_append

@[simp] theorem reports_sys (calls : List SysCall) : reports (calls.map .sys) = 0 := by
  simp [reports,Event.isDisconnect]

theorem reports_message (msg : Buffer) (calls : List SysCall) :
    reports (.message msg::calls.map .sys) = 0 := reports_sys calls

theorem reports_silent {new : List Event} (h : ∀ e ∈ new, e.isSilent) : reports new = 0 := by
  apply List.countP_eq_zero.mpr
  intro e he
  have hs := h e he
  cases e <;> simp_all [Event.isSilent,Event.isDisconnect]

theorem Receipt.reports {data : Buffer} {new : List Event} (h : Receipt data new) :
    reports new = 0 := by
  cases h <;> rfl

/-- A turn reports once at the end of the thread, and otherwise only where it is not quiet. -/
theorem Turn.reports {w w' : World} {p q : Point} {new : List Event} (h : Turn w p new w' q) :
    (QuietAt w.client p → Client.reports new+ends p = ends q) ∧
      (¬QuietAt w.client p → ends q < Client.reports new+ends p) := by
  cases h with
  | resolve _ => exact ⟨fun _ => rfl,fun h => absurd trivial h⟩
  | connect _ => exact ⟨fun _ => rfl,fun h => absurd trivial h⟩
  | exit hp _ =>
    obtain rfl | ⟨es,rfl⟩ := hp
    · exact ⟨fun _ => rfl,fun h => absurd trivial h⟩
    · exact ⟨fun _ => rfl,fun h => absurd trivial h⟩
  | lost hc => exact ⟨fun h => by simp [QuietAt,hc] at h,fun _ => by decide⟩
  | check hc => exact ⟨fun _ => rfl,fun h => absurd hc h⟩
  | poll _ hq =>
    obtain rfl | rfl := hq
    · exact ⟨fun _ => rfl,fun h => absurd trivial h⟩
    · exact ⟨fun _ => rfl,fun h => absurd trivial h⟩
  | receive _ hr => exact ⟨fun _ => by rw [hr.reports]; rfl,fun h => absurd trivial h⟩
  | fail hf =>
    refine ⟨fun h => ?_,fun _ => Nat.zero_lt_one⟩
    obtain hf | hf := hf
    · simp [QuietAt,hf] at h
    · exact absurd hf h.2
  | pass he hd => exact ⟨fun _ => rfl,fun h => absurd ⟨he,hd⟩ h⟩
  | _ => exact ⟨fun _ => rfl,fun h => absurd trivial h⟩

theorem Moved.reports {s t : State} {a : Act} {new : List Event} (h : Moved s a new t) :
    (Quiet s a → Client.reports new+ends s.point = ends t.point) ∧
      (¬Quiet s a → ends t.point < Client.reports new+ends s.point) := by
  cases h with
  | connect hp =>
    refine ⟨fun _ => ?_,fun h => absurd trivial h⟩
    rw [hp]
    rfl
  | sent _ _ =>
    rw [reports_message]
    exact ⟨fun _ => Nat.zero_add _,fun h => absurd trivial h⟩
  | sending _ _ =>
    rw [reports_message]
    exact ⟨fun _ => Nat.zero_add _,fun h => absurd trivial h⟩
  | clear hu he => exact ⟨fun _ => Nat.zero_add _,fun h => absurd he h⟩
  | report hu he =>
    refine ⟨fun h => ?_,fun _ => ?_⟩
    · simp [Quiet,he] at h
    · have : Client.reports [.disconnect .user] = 1 := rfl
      rw [this]
      exact Nat.lt_add_of_pos_left Nat.one_pos
  | net h => exact h.reports
  | blocked hp h hnew =>
    rw [reports_silent hnew]
    refine ⟨fun _ => Nat.zero_add _,fun h => absurd ?_ h⟩
    simp only [Quiet]
    cases hpoint : s.point <;> simp_all [Point.waits,QuietAt]
  | _ => exact ⟨fun _ => Nat.zero_add _,fun h => absurd trivial h⟩

theorem Turn.past {w w' : World} {p q : Point} {new : List Event} (h : Turn w p new w' q) :
    (q.isPast → p.isPast ∨ .connect ∈ new) ∧ (Client.reports new = 0 ∨ p.isPast) := by
  cases h with
  | exit _ _ => exact ⟨fun h => h.elim,Or.inl rfl⟩
  | announce => exact ⟨fun _ => Or.inr List.mem_cons_self,Or.inl rfl⟩
  | poll _ _ => exact ⟨fun _ => Or.inl trivial,Or.inl rfl⟩
  | resolve _ => exact ⟨fun h => h.elim,Or.inl rfl⟩
  | connect _ => exact ⟨fun h => h.elim,Or.inl rfl⟩
  | resolved _ => exact ⟨fun h => h.elim,Or.inl rfl⟩
  | connected _ => exact ⟨fun h => h.elim,Or.inl rfl⟩
  | _ => exact ⟨fun _ => Or.inl trivial,Or.inr trivial⟩

/-- What holds in every run: `on_connect_` was called before the loop, and the last
statement of the thread has reported. -/
structure Marked (s : State) : Prop where
  past : s.point.isPast → .connect ∈ s.world.log
  ended : ends s.point ≤ reports s.world.log

theorem Moved.past {s t : State} {a : Act} {new : List Event} (h : Moved s a new t)
    (hp : t.point.isPast) : s.point.isPast ∨ .connect ∈ new := by
  cases h with
  | connect _ => exact hp.elim
  | net h => exact h.past.1 hp
  | _ => exact Or.inl hp

theorem Moved.silent_or_past {s t : State} {a : Act} {new : List Event} (h : Moved s a new t)
    (hq : Quiet s a) : Client.reports new = 0 ∨ s.point.isPast := by
  cases h with
  | sent _ _ => exact Or.inl (reports_message _ _)
  | sending _ _ => exact Or.inl (reports_message _ _)
  | report _ he => simp [Quiet,he] at hq
  | net h => exact h.past.2
  | blocked _ _ hnew => exact Or.inl (reports_silent hnew)
  | _ => exact Or.inl rfl

theorem Marked.step {s t : State} {a : Act} (hs : Marked s) (h : step s a = some t) :
    Marked t := by
  obtain ⟨-,new,hm⟩ := step_moved h
  constructor
  · intro hp
    rw [hm.log]
    apply List.mem_append.mpr
    obtain hp | hp := hm.past hp
    · exact Or.inl (hs.past hp)
    · exact Or.inr hp
  · have hended := hs.ended
    rw [hm.log,reports_append]
    by_cases hq : Quiet s a
    · have hr := hm.reports.1 hq
      omega
    · have hr := hm.reports.2 hq
      omega

structure Unreported (s : State) : Prop extends Marked s where
  reports : reports s.world.log = ends s.point
  after : ∀ pre caller, pre++[.disconnect caller] <+: s.world.log → .connect ∈ pre

theorem after_append {log new : List Event}
    (h : ∀ pre caller, pre++[.disconnect caller] <+: log → .connect ∈ pre)
    (hnew : reports new = 0 ∨ .connect ∈ log) :
    ∀ pre caller, pre++[.disconnect caller] <+: log++new → .connect ∈ pre := by
  intro pre caller hpre
  obtain hlog | hlog := List.prefix_or_prefix_of_prefix hpre (List.prefix_append log new)
  · exact h pre caller hlog
  · obtain rfl | hlog := List.prefix_concat_iff.mp hlog
    · exact h pre caller (List.prefix_refl _)
    · obtain ⟨rest,rfl⟩ := hlog
      obtain hnew | hnew := hnew
      · rw [List.append_assoc,List.prefix_append_right_inj] at hpre
        have hmem : .disconnect caller ∈ new := hpre.subset (by simp)
        have hno := List.countP_eq_zero.mp hnew _ hmem
        exact absurd rfl hno
      · exact List.mem_append_left rest hnew

theorem Unreported.step {s t : State} {a : Act} (hs : Unreported s) (hq : Quiet s a)
    (h : step s a = some t) : Unreported t := by
  obtain ⟨-,new,hm⟩ := step_moved h
  have hr := hm.reports.1 hq
  refine ⟨hs.toMarked.step h,?_,?_⟩
  · rw [hm.log,reports_append,hs.reports]
    omega
  · rw [hm.log]
    apply after_append hs.after
    exact (hm.silent_or_past hq).imp_right hs.past

theorem Unreported.once {s : State} (hs : Unreported s) : ReportedOnce s.world.log := by
  refine ⟨hs.after,?_⟩
  rw [hs.reports,ends]
  split <;> omega

theorem quiet_of_unreported {s t : State} {a : Act} (hs : Marked s) (h : step s a = some t)
    (ht : reports t.world.log = ends t.point) : Quiet s a ∧ reports s.world.log = ends s.point := by
  obtain ⟨-,new,hm⟩ := step_moved h
  have hended := hs.ended
  rw [hm.log,reports_append] at ht
  by_cases hq : Quiet s a
  · have hr := hm.reports.1 hq
    exact ⟨hq,by omega⟩
  · have hr := hm.reports.2 hq
    omega

theorem marked_initial (running : Bool) (kernel : Kernel) (answers : List Answer) :
    Marked (initial running kernel answers) := ⟨fun h => h.elim,Nat.zero_le _⟩

theorem unreported_initial (running : Bool) (kernel : Kernel) (answers : List Answer) :
    Unreported (initial running kernel answers) := by
  refine ⟨marked_initial running kernel answers,rfl,?_⟩
  intro pre caller h
  have hlen := h.length_le
  simp [initial] at hlen

/-- A client whose acts are all quiet reports a disconnect once. Where the network thread
has ended, or has not called `on_connect_`, no other client does. -/
theorem reported_once_iff_quiet (running : Bool) (kernel : Kernel) (answers : List Answer)
    (as : List Act) :
    (Meets step Quiet (initial running kernel answers) as →
      Always step (fun s => ReportedOnce s.world.log) (initial running kernel answers) as) ∧
    ∀ t, run step (initial running kernel answers) as = some t →
      (t.point = .ended ∨ .connect ∉ t.world.log) →
      (ReportedOnce t.world.log ↔ Meets step Quiet (initial running kernel answers) as) := by
  have hquiet : ∀ s a t, Unreported s → Quiet s a → step s a = some t → Unreported t :=
    fun s a t hs hq h => hs.step hq h
  have h0 := unreported_initial running kernel answers
  refine ⟨fun hm => hm.always hquiet (fun s hs => hs.once) h0,?_⟩
  intro t hrun hend
  constructor
  · intro honce
    have hmarked : ∀ s a t, Marked s → step s a = some t → Marked t := fun s a t hs h => hs.step h
    have ht := run_invariant hmarked h0.toMarked hrun
    have hback : ∀ s a t, Marked s → step s a = some t →
        reports t.world.log = ends t.point → Quiet s a ∧ reports s.world.log = ends s.point :=
      fun s a t hs h ht => quiet_of_unreported hs h ht
    refine (meets_of_last hmarked hback h0.toMarked hrun ?_).1
    have hended := ht.ended
    have hle := honce.once
    obtain hend | hno := hend
    · rw [hend] at hended ⊢
      exact Nat.le_antisymm hle hended
    · have hzero : reports t.world.log = 0 := by
        apply List.countP_eq_zero.mpr
        intro e he hd
        cases e with
        | disconnect caller =>
          obtain ⟨pre,post,hlog⟩ := List.append_of_mem he
          have hpre := honce.after pre caller ⟨post,by simp [hlog]⟩
          exact hno (by rw [hlog]; exact List.mem_append_left _ hpre)
        | _ => cases hd
      rw [hzero] at hended ⊢
      exact Nat.le_antisymm (Nat.zero_le _) hended
  · intro hm
    exact (hm.invariant hquiet h0 hrun).once

/-- The user disconnects a client that has connected. -/
theorem reported_once_disconnected : ∃ t,
    run step (initial true ⟨[],0,[]⟩ (connects++[.shutdown (.ok ()),.close (.ok ())]))
      (opening++[.disconnect,.net,.net,.net]) = some t ∧ t.point = .ended ∧
    ReportedOnce t.world.log := by
  obtain ⟨t,hrun,hend⟩ : ∃ t,
      run step (initial true ⟨[],0,[]⟩ (connects++[.shutdown (.ok ()),.close (.ok ())]))
        (opening++[.disconnect,.net,.net,.net]) = some t ∧ t.point = .ended := ⟨_,rfl,rfl⟩
  have honce := (reported_once_iff_quiet true ⟨[],0,[]⟩ _ _).2 t hrun (Or.inl hend)
  exact ⟨t,hrun,hend,honce.mpr (by decide)⟩

/-- The peer closes the connection; the next two iterations of the loop report it. -/
theorem reported_twice : ¬∀ running kernel answers as t,
    run step (initial running kernel answers) as = some t → ReportedOnce t.world.log := by
  intro h
  have honce := (h true ⟨[],0,[]⟩
    (connects++[.poll (.ok [POLLOUT]),.recv (.ok []),.shutdown (.ok ()),.close (.ok ())])
    (opening++List.replicate 7 .net) _ rfl).once
  exact absurd honce (by decide)

end Client
end Yonaa
