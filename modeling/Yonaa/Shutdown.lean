import Yonaa.ClientRuns

/-! How long the network loop of a client runs. -/
namespace Yonaa
namespace Client
open Machine

/-- After `connect`, `is_running` is true until `disconnect` or `~client` begins. -/
def Runs (s : State) : Prop :=
  s.point ≠ .absent → s.asked = false → s.destroyed = false → isRunning s.world.client = true

/-- The act leaves `is_running` as it should be, and the loop starts an iteration exactly
if neither `disconnect` nor `~client` has begun. -/
structure Follows (s : State) (a : Act) : Prop where
  runs : ∀ t, step s a = some t → Runs t
  iterates : s.point = .head → a = .net → ∀ t, step s a = some t →
    (t.world.log = s.world.log++[.iteration] ↔ s.asked = false ∧ s.destroyed = false)

/-- `running_` holds true when `connect` is called, unless `disconnect` came before it; and
if ~client has begun when the loop reads `running_`, `disconnect` has been called too. -/
def Told (s : State) : Act → Prop
  | .connect _ _ => s.point = .absent → s.asked = true ∨ s.world.client.running = true
  | .net => s.point = .head → s.destroyed = true → s.asked = true
  | _ => True

instance (s : State) : (a : Act) → Decidable (Told s a)
  | .connect _ _ => inferInstanceAs
    (Decidable (s.point = .absent → s.asked = true ∨ s.world.client.running = true))
  | .net => inferInstanceAs
    (Decidable (s.point = .head → s.destroyed = true → s.asked = true))
  | .disconnect | .send _ _ | .check | .destroy => isTrue trivial

structure Flagged (s : State) : Prop where
  asked : s.asked = true → s.world.client.running = false
  unasked : s.point ≠ .absent → s.asked = false → s.world.client.running = true

theorem Turn.present {w w' : World} {p q : Point} {new : List Event} (h : Turn w p new w' q) :
    p ≠ .absent ∧ q ≠ .absent := by
  cases h with
  | exit hp _ =>
    obtain rfl | ⟨es,rfl⟩ := hp
    · exact ⟨by decide,by decide⟩
    · exact ⟨fun h => (by cases h),by decide⟩
  | poll _ hq =>
    obtain rfl | rfl := hq
    · exact ⟨by decide,by decide⟩
    · exact ⟨by decide,by decide⟩
  | _ => exact ⟨fun h => (by cases h),fun h => (by cases h)⟩

theorem Moved.flagged {s t : State} {a : Act} {new : List Event} (hs : Flagged s)
    (h : Moved s a new t) (ha : Told s a) : Flagged t := by
  cases h with
  | connect hp =>
    refine ⟨hs.asked,fun _ hno => ?_⟩
    obtain hasked | hrun := ha hp
    · rw [hasked] at hno
      cases hno
    · exact hrun
  | disconnect => exact ⟨fun _ => rfl,fun _ hno => by cases hno⟩
  | sent _ h =>
    exact ⟨fun hasked => h.running.trans (hs.asked hasked),
      fun hp hno => h.running.trans (hs.unasked hp hno)⟩
  | sending _ h =>
    exact ⟨fun hasked => h.running.trans (hs.asked hasked),
      fun hp hno => h.running.trans (hs.unasked hp hno)⟩
  | net h =>
    exact ⟨fun hasked => h.touch.running.trans (hs.asked hasked),
      fun _ hno => h.touch.running.trans (hs.unasked h.present.1 hno)⟩
  | blocked _ h _ =>
    exact ⟨fun hasked => h.running.trans (hs.asked hasked),
      fun hp hno => h.running.trans (hs.unasked hp hno)⟩
  | _ => exact ⟨hs.asked,hs.unasked⟩

theorem Flagged.runs {s : State} (h : Flagged s) : Runs s := fun hp hno _ => h.unasked hp hno

/-- A turn at the head of the loop starts an iteration exactly if `running_` is set. -/
theorem Moved.iterates {s t : State} {new : List Event} (h : Moved s .net new t)
    (hp : s.point = .head) :
    t.world.log = s.world.log++[.iteration] ↔ s.world.client.running = true := by
  cases h with
  | net hturn =>
    rw [hp] at hturn
    cases hturn with
    | iterate hr => exact ⟨fun _ => hr,fun _ => rfl⟩
    | leave hr => simp [hr]
    | exit hp' _ =>
      obtain hp' | ⟨es,hp'⟩ := hp'
      · cases hp'
      · cases hp'
  | blocked hw _ _ =>
    rw [hp] at hw
    exact hw.elim

theorem Flagged.follows_iff {s t : State} {a : Act} (hs : Flagged s) (h : step s a = some t) :
    Follows s a ↔ Told s a := by
  obtain ⟨⟨-,hgone⟩,new,hm⟩ := step_moved h
  have hhead : s.point = .head → a = .net →
      (t.world.log = s.world.log++[.iteration] ↔ s.asked = false) := by
    intro hp ha
    subst ha
    rw [hm.iterates hp]
    cases hasked : s.asked with
    | true => simp [hs.asked hasked]
    | false => simp [hs.unasked (by rw [hp]; decide) hasked]
  constructor
  · intro hf
    have hruns := hf.runs t h
    cases hm with
    | @connect hostname service hp =>
      intro _
      cases hasked : s.asked with
      | true => exact Or.inl rfl
      | false =>
        have hd : s.destroyed = false := by
          by_contra hd
          exact hgone ⟨by simpa using hd,Or.inl hp⟩
        exact Or.inr (hruns (fun hp => (by cases hp)) hasked hd)
    | terminate hp => exact fun hp' => absurd hp' hp
    | net hturn =>
      intro hp hd
      have hit := hf.iterates hp rfl _ h
      rw [hhead hp rfl] at hit
      by_contra hno
      have := hit.mp (by simpa using hno)
      rw [hd] at this
      cases this.2
    | blocked hw _ _ =>
      intro hp
      rw [hp] at hw
      exact hw.elim
    | _ => trivial
  · intro ha
    refine ⟨?_,?_⟩
    · intro u hu
      cases h.symm.trans hu
      exact (hm.flagged hs ha).runs
    · intro hp hnet u hu
      cases h.symm.trans hu
      rw [hhead hp hnet]
      subst hnet
      refine ⟨fun hno => ⟨hno,?_⟩,And.left⟩
      by_contra hd
      have hasked := ha hp (by simpa using hd)
      rw [hno] at hasked
      cases hasked

/-- In a run the loop and `is_running` follow the requests to stop exactly if the acts meet
the condition on them. -/
theorem follows_iff_told (running : Bool) (kernel : Kernel) (answers : List Answer)
    {as : List Act} {t : State} (h : run step (initial running kernel answers) as = some t) :
    Meets step Follows (initial running kernel answers) as ↔
      Meets step Told (initial running kernel answers) as := by
  have h0 : Flagged (initial running kernel answers) :=
    ⟨fun hasked => (by cases hasked),fun hp => absurd rfl hp⟩
  refine meets_congr ?_ (fun s a t hs ht => hs.follows_iff ht) h0 h
  intro s a t hs ht hf
  obtain ⟨-,new,hm⟩ := step_moved ht
  exact hm.flagged hs ((hs.follows_iff ht).mp hf)

/-- A client that is disconnected in its loop. -/
theorem follows_disconnected : ∃ t,
    run step (initial true ⟨[],0,[]⟩ connects) (opening++[.net,.disconnect]) = some t ∧
    Meets step Follows (initial true ⟨[],0,[]⟩ connects) (opening++[.net,.disconnect]) := by
  obtain ⟨t,ht⟩ : ∃ t, run step (initial true ⟨[],0,[]⟩ connects)
      (opening++[.net,.disconnect]) = some t := ⟨_,rfl⟩
  exact ⟨t,ht,(follows_iff_told true ⟨[],0,[]⟩ connects ht).mpr (by decide)⟩

/-- ~client begins while the loop runs; the next reading of `running_` starts another
iteration. -/
theorem destroyed_iterates : ¬∀ running kernel answers as t,
    run step (initial running kernel answers) as = some t →
      Meets step Follows (initial running kernel answers) as := by
  intro h
  have hf := h true ⟨[],0,[]⟩ connects (opening++[.destroy,.net]) _ rfl
  obtain ⟨s,hs,hp,hd,u,hu,hlog⟩ : ∃ s, run step (initial true ⟨[],0,[]⟩ connects)
      (opening++[.destroy]) = some s ∧ s.point = .head ∧ s.destroyed = true ∧
      ∃ u, step s .net = some u ∧ u.world.log = s.world.log++[.iteration] :=
    ⟨_,rfl,rfl,rfl,_,rfl,rfl⟩
  have hlast : Follows s .net := Meets.at (opening++[.destroy]) [] hf hs
  have hno := ((hlast.iterates hp rfl u hu).mp hlog).2
  rw [hd] at hno
  cases hno

end Client
end Yonaa
