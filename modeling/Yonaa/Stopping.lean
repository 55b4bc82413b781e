import Yonaa.Moves
import Yonaa.Registry

/-! After `stop` the network thread only removes the clients that are marked. -/
namespace Yonaa

/-- What may still be seen once `running_` was cleared: no iteration, no accept, no
receive, and of the handlers only the one for a client marked for removal. -/
def Observation.Quieted (o : Observation) : Prop :=
  match o.event with
  | .iteration | .sys (.accept _ _) | .sys (.recv _ _ _ _ _) => False
  | .callback (.connect _) | .callback (.dataReceive _ _) => False
  | .callback (.disconnect id) =>
    ∃ c ∈ entries o.state.server.clients, c.id = id ∧ c.isConnected = false
  | _ => True

abbrev QuietAfter (o o' : Observation) : Prop := o.event = .stopped → o'.Quieted

theorem Event.isInner.quieted {o : Observation} {b : Bool} (h : o.event.isInner b)
    (hb : b = false) : o.Quieted := by
  obtain ⟨e,p⟩ := o
  subst hb
  cases e with
  | sys c => cases c <;> simp_all [Observation.Quieted,isInner]
  | message id msg => trivial
  | messaged id => trivial
  | _ => exact h.elim

theorem Event.isInner.not_stopped {e : Event} {b : Bool} (h : e.isInner b) : e ≠ .stopped := by
  rintro rfl
  exact h

/-- The records of a move: quiet ones if `running_` was cleared before, and a stop only
where it is cleared now. -/
structure Hushed (w w' : World) (new : List Observation) : Prop where
  quieted : w.server.running = false → ∀ o ∈ new, o.Quieted
  pairwise : new.Pairwise QuietAfter
  stops : (∃ o ∈ new, o.event = .stopped) → w'.server.running = false

section Hushed
variable {w w' : World}

theorem Hushed.of_events {new : List Observation}
    (hq : w.server.running = false → ∀ o ∈ new, o.Quieted)
    (hs : ∀ o ∈ new, o.event ≠ .stopped) : Hushed w w' new := by
  refine ⟨hq,List.pairwise_of_forall_mem_list fun o ho _ _ he => absurd he (hs o ho),?_⟩
  intro h
  obtain ⟨o,ho,he⟩ := h
  exact absurd he (hs o ho)

theorem Hushed.inner {new : List Observation} {b : Bool}
    (h : ∀ o ∈ new, o.event.isInner b) (hb : w.server.running = false → b = false) :
    Hushed w w' new :=
  .of_events (fun hw o ho => (h o ho).quieted (hb hw)) fun o ho => (h o ho).not_stopped

theorem Hushed.running {new : List Observation} (h : w.server.running = true)
    (hs : ∀ o ∈ new, o.event ≠ .stopped) : Hushed w w' new :=
  .of_events (fun hw => by rw [h] at hw; cases hw) hs

theorem Hushed.single {o : Observation} (h : w.server.running = false → o.Quieted)
    (ho : o.event ≠ .stopped) : Hushed w w' [o] :=
  .of_events (by simpa using h) (by simpa using ho)

theorem Hushed.nil : Hushed w w' [] := ⟨by simp,by simp,by simp⟩

end Hushed

theorem not_stopped_append {calls : List SysCall} {p : Process} {o : Observation}
    (h : o.event ≠ .stopped) :
    ∀ o' ∈ calls.map (fun c => (⟨.sys c,p⟩ : Observation))++[o], o'.event ≠ .stopped := by
  refine List.forall_mem_append.mpr ⟨?_,by simpa using h⟩
  intro o' ho'
  obtain ⟨c,-,rfl⟩ := List.mem_map.mp ho'
  exact fun he => nomatch he

theorem ApiStep.hushed {w w' : World} (h : ApiStep w w') :
    ∃ new, w'.log = w.log++new ∧ Hushed w w' new := by
  cases h with
  | quiet h =>
    obtain ⟨new,hl,hn⟩ := h.log
    exact ⟨new,hl,.inner hn fun _ => rfl⟩
  | marked h => exact ⟨_,rfl,.single (fun _ => trivial) fun h => nomatch h⟩
  | stopped =>
    exact ⟨_,rfl,fun _ => List.forall_mem_singleton.mpr trivial,List.pairwise_singleton _ _,
      fun _ => rfl⟩

theorem Move.hushed {x y : Point × World} (h : Move x y) (hx : Base x) :
    ∃ new, y.2.log = x.2.log++new ∧ Hushed x.2 y.2 new := by
  cases h with
  | opened hs hn hl => exact ⟨[],by simp [hl],.nil⟩
  | api hp h => exact h.hushed
  | enter h => exact ⟨_,rfl,.running h (by simp)⟩
  | leave h => exact ⟨[],by simp,.nil⟩
  | refused hrun h =>
    obtain ⟨new,hl,hn⟩ := h.log
    exact ⟨new,hl,.running hrun fun o ho => (hn o ho).not_stopped⟩
  | registered hrun hnew hconn hp hfds hs hn hl =>
    exact ⟨_,by rw [World.note_log,hl,List.append_assoc],.running hrun (by simp)⟩
  | polled h =>
    obtain ⟨pfds,n,hl⟩ := h.log
    exact ⟨_,hl,.single (fun _ => trivial) fun h => nomatch h⟩
  | ignored => exact ⟨[],by simp,.nil⟩
  | rejected hrun hf hfds hcalls hd =>
    exact ⟨_,List.append_assoc _ _ _,.running hrun (not_stopped_append fun h => nomatch h)⟩
  | closed hrun hf hopen hfds hcalls hd =>
    exact ⟨_,List.append_assoc _ _ _,.running hrun (not_stopped_append fun h => nomatch h)⟩
  | delivered hrun hf hopen hne hsize hec hfds hcalls =>
    exact ⟨_,List.append_assoc _ _ _,.running hrun (not_stopped_append fun h => nomatch h)⟩
  | sweep => exact ⟨_,rfl,.single (fun _ => trivial) fun h => nomatch h⟩
  | skip h => exact ⟨[],by simp,.nil⟩
  | parted h hkept hgone => exact ⟨[],by simp,.nil⟩
  | moved hflag hnone hsub hgap hs hn hl =>
    obtain ⟨new,hl,hnew⟩ := hl
    exact ⟨new,hl,.inner (hnew.isInner false) fun _ => rfl⟩
  | @disconnected w w1 first n i c conn h hconn hs hn hfds hl =>
    have hlt : i < w.server.clients.length := (List.getElem?_eq_some_iff.mp h).1
    have hmem : some { c with conn := conn } ∈ w1.server.clients := by
      rw [hs]
      exact List.mem_of_getElem? (List.getElem?_set_self hlt)
    have hgone : (⟨.callback (.disconnect c.id),w1.toProcess⟩ : Observation).Quieted :=
      ⟨_,List.reduceOption_mem_iff.mpr hmem,rfl,hx.2.gone i c hx.2.first_le h⟩
    obtain ⟨-,hl⟩ | ⟨-,p,-,hl⟩ := hl
    · exact ⟨_,by rw [World.note_log,hl],.single (fun _ => hgone) fun h => nomatch h⟩
    · refine ⟨_,by rw [World.note_log,hl,List.append_assoc],.of_events (fun _ => ?_) (by simp)⟩
      exact List.forall_mem_cons.mpr ⟨trivial,by simpa using hgone⟩
  | erased => exact ⟨[],by simp,.nil⟩
  | shut ha hs hn hl hnew hf => exact ⟨_,hl,.inner (hnew.isInner false) fun _ => rfl⟩
  | die hp hl hnew => exact ⟨_,hl,.inner hnew id⟩

structure Stopping (x : Point × World) : Prop where
  quiet : x.2.log.Pairwise QuietAfter
  start : x.1 = .start → x.2.log = []
  halted : x.1 ≠ .dead → (∃ o ∈ x.2.log, o.event = .stopped) → x.2.server.running = false
  shut : x.1 = .done → x.2.server.acceptor.isOpen = false

/-- `running_` is set only by the start of the thread function. -/
theorem Move.running {x y : Point × World} (h : Move x y) (hx : x.1 ≠ .start)
    (hy : y.1 ≠ .dead) (hr : x.2.server.running = false) : y.2.server.running = false := by
  cases h with
  | opened hs hn hl => exact absurd rfl hx
  | api hp h =>
    cases h with
    | quiet h => exact h.running.trans hr
    | marked h => exact hr
    | stopped => rfl
  | refused hrun h => exact h.running.trans hr
  | registered hrun hnew hconn hp hfds hs hn hl => simpa [hs] using hr
  | polled h =>
    obtain ⟨g,-,hs⟩ := h.server
    simpa [hs] using hr
  | moved hflag hnone hsub hgap hs hn hl => simpa [hs] using hr
  | disconnected h hconn hs hn hfds hl => simpa [hs] using hr
  | shut ha hs hn hl hnew hf => simpa [hs] using hr
  | die hp hl hnew => exact absurd rfl hy
  | _ => exact hr

theorem Move.point_start {x y : Point × World} (h : Move x y) : y.1 ≠ .start := by
  cases h with
  | api hp h =>
    rintro rfl
    exact hp
  | _ => exact fun h => nomatch h

theorem Passed.stopping {x : Point × World} (hx : Passed x) : Stopping x := by
  refine hx.induct (I := Stopping) ?_ ?_
  · intro env
    exact ⟨.nil,fun _ => rfl,fun _ h => by simp [Environment.initial] at h,fun h => nomatch h⟩
  · intro x y hx hm ih
    obtain ⟨new,hl,hq,hp,hs⟩ := hm.hushed hx.base
    refine ⟨?_,fun h => absurd h hm.point_start,?_,?_⟩
    · rw [hl,List.pairwise_append]
      refine ⟨ih.quiet,hp,?_⟩
      intro o ho o' ho' he
      exact hq (ih.halted hm.alive ⟨o,ho,he⟩) o' ho'
    · intro hy h
      obtain ⟨o,ho,he⟩ := h
      rw [hl] at ho
      obtain ho | ho := List.mem_append.mp ho
      · have hstart : x.1 ≠ .start := fun h => by
          rw [ih.start h] at ho
          cases ho
        exact hm.running hstart hy (ih.halted (hm.alive) ⟨o,ho,he⟩)
      · exact hs ⟨o,ho,he⟩
    · intro hy
      cases hm with
      | shut ha hs' hn hl hnew hf => simpa [hs'] using ha
      | api hp h =>
        obtain rfl : _ = Point.done := hy
        exact hp.elim
      | _ => cases hy

/-- After a stop the thread calls no connect and no data handler, accepts and receives
nothing, and goes through no further iteration; when it returns the acceptor is closed. -/
theorem Environment.quiet_after_stop (env : Environment) (fuel : Nat) :
    (env.log fuel).Pairwise QuietAfter ∧
    ((∃ o ∈ env.log fuel, o.event = .stopped) → (env.run fuel).1 ≠ .error .outOfFuel) ∧
    ((env.run fuel).1 = .ok () → (env.run fuel).2.server.acceptor.isOpen = false) := by
  obtain ⟨p,hp,hdone,hfuel⟩ := env.passed fuel
  have hst := hp.stopping
  refine ⟨hst.quiet,?_,fun h => hst.shut (hdone h)⟩
  intro hstop hout
  obtain ⟨halive,hrun⟩ := hfuel hout
  have hno := hst.halted halive hstop
  rw [hrun] at hno
  cases hno

/-- The data handler stops the server, removes the second client and sends to the first. -/
def Environment.stopping : Environment where
  port := 5000
  kernel := ⟨[0,1,2],0,[]⟩
  answers := startup++pending 4++pending 5++[.poll (.ok [0]),.poll (.ok [1,1]),.recv (.ok [7]),
    .send (.ok 1),.shutdown (.ok ()),.close (.ok ()),.shutdown (.ok ()),.close (.ok ())]
  handlers := [[],[],[.stop,.removeClient 2,.messageClient (.ofList [9]) 1],[]]
  stops := List.replicate 10 false

/-- The stop is the twelfth record; the second client has an event left, and goes. -/
theorem Environment.quiet_after_stop_handler :
    (∃ o ∈ (stopping.log 5).take 12, o.event = .stopped) ∧
    (∀ o ∈ (stopping.log 5).drop 12, o.Quieted) ∧
    (∃ o ∈ (stopping.log 5).drop 12, o.event = .callback (.disconnect 2)) ∧
    (stopping.run 5).1 ≠ .error .outOfFuel ∧
    (stopping.run 5).2.server.acceptor.isOpen = false := by
  have hstop : ∃ o ∈ (stopping.log 5).take 12, o.event = .stopped := by decide +kernel
  obtain ⟨hquiet,hfuel,hshut⟩ := stopping.quiet_after_stop 5
  rw [← List.take_append_drop 12 (stopping.log 5),List.pairwise_append] at hquiet
  obtain ⟨o,ho,he⟩ := hstop
  exact ⟨⟨o,ho,he⟩,fun o' ho' => hquiet.2.2 o ho o' ho' he,by decide +kernel,
    hfuel ⟨o,List.mem_of_mem_take ho,he⟩,hshut (by decide +kernel)⟩

end Yonaa
