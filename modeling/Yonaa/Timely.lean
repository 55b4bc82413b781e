import Yonaa.Inbound
import Yonaa.Releases

/-! Removal in time: a client that is marked before a sweep begins has been disconnected when
the next iteration starts. -/
namespace Yonaa
open Relation

def dueIds (log : List Observation) : List ClientId :=
  markedIds (log.reverse.dropWhile fun o => o.event ≠ .sweep).reverse

/-- The client is no longer in the registry, and was disconnected once if it was announced. -/
structure Dismissed (id : ClientId) (log : List Observation) (p : Process) : Prop where
  absent : ∀ c ∈ entries p.server.clients, c.id ≠ id
  disconnected : id ∈ announced log → (callbacksOf id log).count (.disconnect id) = 1

/-- When an iteration starts, the clients that were marked before the last sweep are
dismissed. -/
def Punctual (log : List Observation) : Prop :=
  ∀ pre o, pre++[o] <+: log → o.event = .iteration → ∀ id ∈ dueIds pre, Dismissed id pre o.state

theorem dueIds_sweep {log : List Observation} {o : Observation} (h : o.event = .sweep) :
    dueIds (log++[o]) = markedIds (log++[o]) := by
  simp [dueIds,h]

theorem dueIds_same {log new : List Observation} (h : ∀ o ∈ new, o.event ≠ .sweep) :
    dueIds (log++new) = dueIds log := by
  have hnew : new.reverse.dropWhile (fun o => o.event ≠ .sweep) = [] :=
    List.dropWhile_eq_nil_iff.mpr fun o ho => decide_eq_true (h o (List.mem_reverse.mp ho))
  rw [dueIds,List.reverse_append,List.dropWhile_append,hnew]
  rfl

theorem dueIds_marked (log : List Observation) : dueIds log ⊆ markedIds log := by
  have hpre : (log.reverse.dropWhile fun o => o.event ≠ .sweep).reverse <+: log := by
    rw [← List.reverse_suffix,List.reverse_reverse]
    exact List.dropWhile_suffix _
  obtain ⟨rest,hrest⟩ := hpre
  intro id hid
  rw [← hrest,markedIds,observed_append]
  exact List.mem_append_left _ hid

def Observation.isSteady (o : Observation) : Prop := o.event ≠ .sweep ∧ o.event ≠ .iteration

theorem Event.isInner.steady {o : Observation} {b : Bool} (h : o.event.isInner b) :
    o.isSteady := by
  constructor
  · intro he
    rw [he] at h
    exact h
  · intro he
    rw [he] at h
    exact h

inductive Beat : Point × World → Point × World → Prop where
  | iteration {w : World} : Beat (.top,w) (.accepting,w.note .iteration)
  | sweep {es : PollResult} {w : World} : Beat (.events es,w) (.sweeping,w.note .sweep)
  | steady {x y : Point × World} {new : List Observation} (hlog : y.2.log = x.2.log++new)
      (hnew : ∀ o ∈ new, o.isSteady) : Beat x y

theorem Move.beat {x y : Point × World} (h : Move x y) : Beat x y := by
  cases h with
  | opened hs hn hl => exact .steady (hl.trans (List.append_nil _).symm) (List.forall_mem_nil _)
  | api hp h =>
    cases h with
    | quiet h =>
      obtain ⟨new,hl,hn⟩ := h.log
      exact .steady hl fun o ho => (hn o ho).steady
    | marked h => exact .steady (World.mark_log _ _ _) (by simp [Observation.isSteady])
    | stopped => exact .steady (World.halted_log _) (by simp [Observation.isSteady])
  | enter h => exact .iteration
  | leave h => exact .steady (List.append_nil _).symm (List.forall_mem_nil _)
  | refused hrun h =>
    obtain ⟨new,hl,hn⟩ := h.log
    exact .steady hl fun o ho => (hn o ho).steady
  | registered hrun hnew hconn hp hfds hs hn hl =>
    exact .steady (by rw [World.note_log,hl,List.append_assoc]) (by simp [Observation.isSteady])
  | polled h =>
    obtain ⟨pfds,n,hl⟩ := h.log
    exact .steady hl (by simp [Observation.isSteady])
  | ignored => exact .steady (List.append_nil _).symm (List.forall_mem_nil _)
  | @rejected w s e es i j c d ec hrun hf hfds hcalls hd =>
    refine .steady (List.append_assoc _ _ _) (List.forall_mem_append.mpr ⟨?_,?_⟩)
    · exact List.forall_mem_map.mpr fun c _ => by simp [Observation.isSteady]
    · simp [Observation.isSteady]
  | @closed w s e es i j flags c d ec hrun hf hopen hfds hcalls hd =>
    refine .steady (List.append_assoc _ _ _) (List.forall_mem_append.mpr ⟨?_,?_⟩)
    · exact List.forall_mem_map.mpr fun c _ => by simp [Observation.isSteady]
    · simp [Observation.isSteady]
  | @delivered w s e es i flags c bytes hrun hf hopen hne hsize hec hfds hcalls =>
    refine .steady (List.append_assoc _ _ _) (List.forall_mem_append.mpr ⟨?_,?_⟩)
    · exact List.forall_mem_map.mpr fun c _ => by simp [Observation.isSteady]
    · simp [Observation.isSteady]
  | sweep => exact .sweep
  | skip h => exact .steady (List.append_nil _).symm (List.forall_mem_nil _)
  | parted h hkept hgone => exact .steady (List.append_nil _).symm (List.forall_mem_nil _)
  | moved hflag hnone hsub hgap hs hn hl =>
    obtain ⟨new,hl,hnew⟩ := hl
    exact .steady hl fun o ho => (hnew.isInner true o ho).steady
  | disconnected h hconn hs hn hfds hl =>
    obtain ⟨-,hl⟩ | ⟨-,p,-,hl⟩ := hl
    · exact .steady (by rw [World.note_log,hl]) (by simp [Observation.isSteady])
    · exact .steady (by rw [World.note_log,hl,List.append_assoc])
        (by simp [Observation.isSteady])
  | erased => exact .steady (List.append_nil _).symm (List.forall_mem_nil _)
  | shut ha hs hn hl hnew hf => exact .steady hl fun o ho => (hnew.isInner true o ho).steady
  | die hp hl hnew => exact .steady hl fun o ho => (hnew o ho).steady

theorem Punctual.snoc {log : List Observation} {o : Observation} (h : Punctual log)
    (ho : o.event = .iteration → ∀ id ∈ dueIds log, Dismissed id log o.state) :
    Punctual (log++[o]) := by
  intro pre x hpre hx
  obtain hlast | hpre := List.prefix_concat_iff.mp hpre
  · obtain ⟨rfl,heq⟩ := List.append_inj' hlast rfl
    cases heq
    exact ho hx
  · exact h pre x hpre hx

theorem Punctual.append {log new : List Observation} (h : Punctual log)
    (hnew : ∀ o ∈ new, o.event ≠ .iteration) : Punctual (log++new) := by
  induction new using List.reverseRecOn with
  | nil =>
    rw [List.append_nil]
    exact h
  | append_singleton new o ih =>
    rw [← List.append_assoc]
    refine (ih fun x hx => hnew x (List.mem_append_left _ hx)).snoc fun ho => ?_
    exact absurd ho (hnew o (by simp))

theorem Dismissed.of_absent {x : Point × World} {id : ClientId} (hx : Passed x)
    (hfew : Few x.2.log) (hdoom : ¬Doomed x) (h : ∀ c ∈ entries x.2.server.clients, c.id ≠ id) :
    Dismissed id x.2.log x.2.toProcess := by
  have hrel := (hx.releasing hfew).resolve_left hdoom
  refine ⟨h,fun hann => ?_⟩
  refine (((hx.sessions hfew).session id).count (mem_callbacksOf.mpr hann)).mpr fun hopen => ?_
  obtain ⟨j,c,hc,-,hcid⟩ := hrel.listed id hopen
  exact h c (mem_of_getElem? hc) hcid

/-- Nothing more is read from the clients that are due, and the log so far is punctual. -/
structure Prompt (x : Point × World) : Prop where
  drained : x.1 ≠ .dead → ∀ id ∈ dueIds x.2.log, Drained id x
  punctual : Punctual x.2.log

theorem Prompt.move {x y : Point × World} (h : Prompt x) (hx : Passed x) (hm : Move x y)
    (hfew : Few y.2.log) : Prompt y := by
  have hfewx := hfew.restrict hm.log
  have halive := hm.alive
  have hnum := hx.numbered hfewx
  have hmark : Marking (Few x.2.log) x.2 := hx.marking id halive
  have hdrained : ∀ id ∈ dueIds x.2.log, Drained id y := by
    intro id hid
    refine (h.drained halive id hid).move hm hx.base fun _ => ?_
    have hold := hmark.old hfewx id (dueIds_marked _ hid)
    have hnext := hnum.next halive
    rintro rfl
    omega
  cases hm.beat with
  | @iteration w =>
    constructor
    · intro _
      rw [World.note_log,dueIds_same (by simp)]
      exact hdrained
    · refine h.punctual.snoc fun _ id hid => ?_
      have hgone : ∀ c ∈ entries w.server.clients, c.id ≠ id := h.drained halive id hid
      exact Dismissed.of_absent hx hfewx (fun hdoom => hdoom) hgone
  | @sweep es w =>
    constructor
    · intro _ id hid c hc hcid
      rw [World.note_log,dueIds_sweep rfl,markedIds,observed_append] at hid
      have hid : id ∈ markedIds w.log := (List.mem_append.mp hid).resolve_right List.not_mem_nil
      refine Bool.eq_false_of_not_eq_true fun hc' => ?_
      exact hmark.kept hfewx c hc hc' (hcid ▸ hid)
    · exact h.punctual.append (by simp)
  | steady hlog hnew =>
    constructor
    · intro _
      rw [hlog,dueIds_same fun o ho => (hnew o ho).1]
      exact hdrained
    · rw [hlog]
      exact h.punctual.append fun o ho => (hnew o ho).2

theorem Passed.prompt {x : Point × World} (hx : Passed x) (hfew : Few x.2.log) : Prompt x := by
  refine hx.induct (I := fun x => Few x.2.log → Prompt x) (fun env _ => ?_) ?_ hfew
  · refine ⟨fun _ => List.forall_mem_nil _,fun pre o hpre => ?_⟩
    exact absurd (List.prefix_nil.mp hpre) (by simp)
  · intro x y hx hm ih hfew
    exact (ih (hfew.restrict hm.log)).move hx hm hfew

/-- In every run a client that is marked for removal before a sweep begins has been
disconnected, once, and is no longer in the registry when the next iteration starts, or when
the thread function returns. -/
theorem Environment.marked_released (env : Environment) (fuel : Nat)
    (hfew : Few (env.log fuel)) : Punctual (env.log fuel) ∧
      ((env.run fuel).1 = .ok () →
        ∀ id ∈ dueIds (env.log fuel), Dismissed id (env.log fuel) (env.run fuel).2.toProcess) := by
  obtain ⟨p,hp,hdone,-⟩ := env.passed fuel
  have hprompt : Prompt (p,(env.run fuel).2) := hp.prompt hfew
  refine ⟨hprompt.punctual,fun hok id hid => ?_⟩
  obtain rfl := hdone hok
  exact Dismissed.of_absent hp hfew (fun hdoom => hdoom) (hprompt.drained (by simp) id hid)

/-- The client that its connect handler removes is due, and dismissed when the thread
returns. -/
theorem Environment.marked_released_farewell : dueIds (farewell.log 5) = [1] ∧
    Dismissed 1 (farewell.log 5) (farewell.run 5).2.toProcess := by
  have hdue : dueIds (farewell.log 5) = [1] := by decide +kernel
  refine ⟨hdue,(farewell.marked_released 5 (by decide +kernel)).2 ?_ 1 ?_⟩
  · decide +kernel
  · rw [hdue]
    exact List.mem_singleton_self 1

end Yonaa
