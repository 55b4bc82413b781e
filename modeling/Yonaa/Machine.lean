import Mathlib

/-! Machines whose acts can be disabled: runs over lists of acts, and the runs in which
every act meets a condition on the state before it. -/
namespace Machine
variable {σ α : Type} (step : σ → α → Option σ) (ok : σ → α → Prop)

/-- The state after the acts; none if one of them is disabled when its turn comes. -/
def run : σ → List α → Option σ
  | s, [] => some s
  | s, a::as => (step s a).bind fun t => run t as

/-- Every act of the run meets ok. -/
def Meets : σ → List α → Prop
  | _, [] => True
  | s, a::as => ok s a ∧ ∀ t ∈ step s a, Meets t as

/-- P holds in every state the run passes through. -/
def Always (P : σ → Prop) : σ → List α → Prop
  | s, [] => P s
  | s, a::as => P s ∧ ∀ t ∈ step s a, Always P t as

instance Meets.decidable [∀ s a, Decidable (ok s a)] :
    ∀ s as, Decidable (Meets step ok s as)
  | _, [] => isTrue trivial
  | s, a::as =>
    have : ∀ t, Decidable (Meets step ok t as) := fun t => Meets.decidable t as
    inferInstanceAs (Decidable (ok s a ∧ ∀ t ∈ step s a, Meets step ok t as))

variable {step ok}

@[simp] theorem run_nil (s : σ) : run step s [] = some s := rfl

theorem run_cons {s t : σ} {a : α} (as : List α) (h : step s a = some t) :
    run step s (a::as) = run step t as := by
  rw [run,h,Option.bind_some]

theorem run_single {s t : σ} {a : α} (h : step s a = some t) : run step s [a] = some t :=
  run_cons [] h

theorem run_append (s : σ) (as bs : List α) :
    run step s (as++bs) = (run step s as).bind fun t => run step t bs := by
  induction as generalizing s with
  | nil => rfl
  | cons a as ih =>
    cases h : step s a with
    | none => simp [run,h]
    | some t => simpa [run,h] using ih t

theorem run_trans {s t u : σ} {as bs : List α} (has : run step s as = some t)
    (hbs : run step t bs = some u) : run step s (as++bs) = some u := by
  rw [run_append,has]
  exact hbs

/-- What every act meeting ok preserves holds at the end of every run of such acts. -/
theorem Meets.invariant {I : σ → Prop}
    (hstep : ∀ s a t, I s → ok s a → step s a = some t → I t) {s t : σ} {as : List α}
    (hs : I s) (ho : Meets step ok s as) (h : run step s as = some t) : I t := by
  induction as generalizing s with
  | nil =>
    cases h
    exact hs
  | cons a as ih =>
    obtain ⟨u,ha,hu⟩ := Option.bind_eq_some_iff.mp h
    exact ih (hstep s a u hs ho.1 ha) (ho.2 u ha) hu

theorem Meets.cons {s t : σ} {a : α} {as : List α} (h : step s a = some t) (ho : ok s a)
    (hm : Meets step ok t as) : Meets step ok s (a::as) := by
  refine ⟨ho,?_⟩
  intro u hu
  cases h.symm.trans hu
  exact hm

theorem meets_of_forall (h : ∀ s a, ok s a) (s : σ) (as : List α) : Meets step ok s as := by
  induction as generalizing s with
  | nil => trivial
  | cons a as ih => exact ⟨h s a,fun t _ => ih t⟩

theorem Meets.always {I P : σ → Prop}
    (hstep : ∀ s a t, I s → ok s a → step s a = some t → I t) (hP : ∀ s, I s → P s)
    {s : σ} {as : List α} (hs : I s) (ho : Meets step ok s as) : Always step P s as := by
  induction as generalizing s with
  | nil => exact hP s hs
  | cons a as ih => exact ⟨hP s hs,fun t ht => ih (hstep s a t hs ho.1 ht) (ho.2 t ht)⟩

theorem Always.head {P : σ → Prop} {s : σ} {as : List α} (h : Always step P s as) : P s := by
  cases as with
  | nil => exact h
  | cons a as => exact h.1

theorem Always.last {P : σ → Prop} {s t : σ} {as : List α} (hP : Always step P s as)
    (h : run step s as = some t) : P t := by
  induction as generalizing s with
  | nil =>
    cases h
    exact hP
  | cons a as ih =>
    obtain ⟨u,ha,hu⟩ := Option.bind_eq_some_iff.mp h
    exact ih (hP.2 u ha) hu

theorem run_invariant {I : σ → Prop} (hstep : ∀ s a t, I s → step s a = some t → I t) {s t : σ}
    {as : List α} (hs : I s) (h : run step s as = some t) : I t := by
  have hall : Meets step (fun _ _ => True) s as := meets_of_forall (fun _ _ => trivial) s as
  exact hall.invariant (fun s a t hs _ ha => hstep s a t hs ha) hs h

/-- A run meets ok if P holds at its end, and only an act that meets ok leads to P, from a
state with P. -/
theorem meets_of_last {I P : σ → Prop} (hstep : ∀ s a t, I s → step s a = some t → I t)
    (hback : ∀ s a t, I s → step s a = some t → P t → ok s a ∧ P s) {s t : σ} {as : List α}
    (hs : I s) (h : run step s as = some t) (hP : P t) : Meets step ok s as ∧ P s := by
  induction as generalizing s with
  | nil =>
    cases h
    exact ⟨trivial,hP⟩
  | cons a as ih =>
    obtain ⟨u,ha,hu⟩ := Option.bind_eq_some_iff.mp h
    obtain ⟨hrest,hu'⟩ := ih (hstep s a u hs ha) hu
    obtain ⟨hok,hs'⟩ := hback s a u hs ha hu'
    exact ⟨.cons ha hok hrest,hs'⟩

/-- A run in which P holds throughout meets ok, if P after an act implies ok before it. -/
theorem Always.meets {P : σ → Prop} (hok : ∀ s a t, step s a = some t → P t → ok s a)
    {s t : σ} {as : List α} (hP : Always step P s as) (h : run step s as = some t) :
    Meets step ok s as := by
  induction as generalizing s with
  | nil => trivial
  | cons a as ih =>
    obtain ⟨u,ha,hu⟩ := Option.bind_eq_some_iff.mp h
    refine ⟨hok s a u ha (hP.2 u ha).head,?_⟩
    intro v hv
    cases ha.symm.trans hv
    exact ih (hP.2 u ha) hu

/-- P holds throughout a run exactly if its acts meet ok: an act that does keeps the
invariant, and an act that does not is seen in the state after it. -/
theorem always_iff_meets {I P : σ → Prop} {side : σ → α → Prop} (hP : ∀ s, I s → P s)
    (hok : ∀ s a t, I s → side s a → step s a = some t → P t → ok s a)
    (hstep : ∀ s a t, I s → side s a → step s a = some t → ok s a → I t) {s t : σ}
    {as : List α} (hs : I s) (hside : Meets step side s as) (h : run step s as = some t) :
    Always step P s as ↔ Meets step ok s as := by
  induction as generalizing s with
  | nil => exact ⟨fun _ => trivial,fun _ => hP s hs⟩
  | cons a as ih =>
    obtain ⟨u,ha,hu⟩ := Option.bind_eq_some_iff.mp h
    constructor
    · intro hall
      have hrest := hall.2 u ha
      have hmeets := hok s a u hs hside.1 ha hrest.head
      exact .cons ha hmeets ((ih (hstep s a u hs hside.1 ha hmeets) (hside.2 u ha) hu).mp hrest)
    · intro hmeets
      refine ⟨hP s hs,?_⟩
      intro v hv
      cases ha.symm.trans hv
      exact (ih (hstep s a u hs hside.1 ha hmeets.1) (hside.2 u ha) hu).mpr (hmeets.2 u ha)

/-- Two conditions that agree wherever a run that meets the first comes. -/
theorem meets_congr {I : σ → Prop} {ok' : σ → α → Prop}
    (hstep : ∀ s a t, I s → step s a = some t → ok s a → I t)
    (hok : ∀ s a t, I s → step s a = some t → (ok s a ↔ ok' s a)) {s t : σ} {as : List α}
    (hs : I s) (h : run step s as = some t) : Meets step ok s as ↔ Meets step ok' s as := by
  induction as generalizing s with
  | nil => exact Iff.rfl
  | cons a as ih =>
    obtain ⟨u,ha,hu⟩ := Option.bind_eq_some_iff.mp h
    have hfirst := hok s a u hs ha
    constructor
    · intro hm
      have hrest := ih (hstep s a u hs ha hm.1) hu
      exact .cons ha (hfirst.mp hm.1) (hrest.mp (hm.2 u ha))
    · intro hm
      have hrest := ih (hstep s a u hs ha (hfirst.mpr hm.1)) hu
      exact .cons ha (hfirst.mpr hm.1) (hrest.mpr (hm.2 u ha))

theorem Meets.at {s t : σ} {a : α} (as bs : List α) (h : Meets step ok s (as++a::bs))
    (hr : run step s as = some t) : ok t a := by
  induction as generalizing s with
  | nil =>
    cases hr
    exact h.1
  | cons b as ih =>
    obtain ⟨u,hb,hu⟩ := Option.bind_eq_some_iff.mp hr
    exact ih (h.2 u hb) hu

end Machine
