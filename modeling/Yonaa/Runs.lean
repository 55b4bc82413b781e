import Yonaa.Effects

/-! The runs of the network thread as walks of a transition system whose steps are
the pieces of server.cpp. What every step preserves holds at the end of every run. -/
namespace Yonaa
open Relation

/-- Where the network thread is between two pieces. -/
inductive Point where
  | start
  | top                                  -- before `running_` is read by the network loop
  | accepting                            -- in the accept loop, before `running_` is read
  | events (es : PollResult)             -- in the event loop, es still to be handled
  | sweeping                             -- in `handle_disconnected_clients_`
  | removing (first n i : Nat)           -- in its loop: n entries from i on, first removed is first
  | left                                 -- after the network loop
  | done
  | dead                                 -- the run has ended within a piece

namespace Point

/-- A handler may be running. -/
def live : Point → Prop
  | .top | .accepting | .events _ | .removing _ _ _ => True
  | _ => False

/-- p, unless the piece did not return. -/
def orDead {α : Type} (p : Point) : Except Halt α → Point
  | .ok _ => p
  | .error _ => .dead

end Point

inductive Action (w : World) : Except Halt Unit × World → Prop where
  | inputs (hs : List (List ApiCall)) (ss : List Bool) :
      Action w (.ok (), { w with handlers := hs, stops := ss })
  | stop : Action w (.ok (), w.halted)
  | remove (id : ClientId) : Action w ((Server.removeClient id).run w)
  | message (msg : Buffer) (id : ClientId) : Action w ((Server.messageClient msg id).run w)

open Server in
/-- One piece of the network thread. -/
inductive Step : Point × World → Point × World → Prop where
  | opening {w : World} :
      Step (.start,w) (Point.top.orDead (openAcceptor.run w).1,(openAcceptor.run w).2)
  | action {p : Point} {w : World} {r : Except Halt Unit × World} (hp : p.live)
      (ha : Action w r) : Step (p,w) (p.orDead r.1,r.2)
  | enter {w : World} (h : w.server.running = true) :
      Step (.top,w) (.accepting,w.note .iteration)
  | leave {w : World} (h : w.server.running = false) : Step (.top,w) (.left,w)
  | pending {w : World} (h : w.server.running = true) :
      Step (.accepting,w)
        (Point.accepting.orDead (hasPendingConnection.run w).1,(hasPendingConnection.run w).2)
  | accept {w : World} (h : w.server.running = true) :
      Step (.accepting,w) (Point.accepting.orDead (acceptClient.run w).1,(acceptClient.run w).2)
  | poll {w w' : World} {es : PollResult} (h : pollClients.run w = (.ok es,w')) :
      Step (.accepting,w) (.events es,w')
  | pollCut {w w' : World} {e : Halt} (h : pollClients.run w = (.error e,w')) :
      Step (.accepting,w) (.dead,w')
  | event {w : World} {e : SocketStatusInfo} {es : PollResult} (h : w.server.running = true) :
      Step (.events (e::es),w)
        ((Point.events es).orDead ((handleEvent e).run w).1,((handleEvent e).run w).2)
  | sweep {w : World} {es : PollResult} : Step (.events es,w) (.sweeping,w.note .sweep)
  | skip {w : World} (h : w.server.hasDisconnectedClients = false) : Step (.sweeping,w) (.top,w)
  | part {w w' : World} {first : Nat} (h : w.server.hasDisconnectedClients = true)
      (hr : removeDisconnected.run w = (.ok first,w')) :
      Step (.sweeping,w) (.removing first (w'.server.clients.length-first) first,w')
  | partCut {w w' : World} {e : Halt} (hr : removeDisconnected.run w = (.error e,w')) :
      Step (.sweeping,w) (.dead,w')
  | disconnect {w : World} {first n i : Nat} :
      Step (.removing first (n+1) i,w)
        ((Point.removing first n (i+1)).orDead ((disconnectClient i).run w).1,
          ((disconnectClient i).run w).2)
  | erase {w : World} {first i : Nat} :
      Step (.removing first 0 i,w)
        (Point.top.orDead ((eraseFrom first).run w).1,((eraseFrom first).run w).2)
  | closing {w : World} :
      Step (.left,w) (Point.done.orDead (closeAcceptor.run w).1,(closeAcceptor.run w).2)

/-- The pairs of a point and a state that runs pass through. -/
def Reachable (x : Point × World) : Prop :=
  ∃ env : Environment, ReflTransGen Step (.start,env.initial) x

/-- An invariant of the steps holds wherever a run comes. -/
theorem Reachable.induct {I : Point × World → Prop}
    (hinit : ∀ env : Environment, I (.start,env.initial))
    (hstep : ∀ x y, Reachable x → Step x y → I x → I y) {x : Point × World}
    (hx : Reachable x) : I x := by
  obtain ⟨env,h⟩ := hx
  induction h with
  | refl => exact hinit env
  | tail hreach hs ih => exact hstep _ _ ⟨env,hreach⟩ hs ih

theorem Reachable.step {x y : Point × World} (hx : Reachable x) (h : Step x y) :
    Reachable y := by
  obtain ⟨env,hx⟩ := hx
  exact ⟨env,hx.tail h⟩

namespace Server
open Prog Net

/-- Only the bound on the iterations stops a run whose loop would go on. -/
def Bounded (e : Halt) (p : Point) (w : World) : Prop :=
  e = .outOfFuel → p ≠ .dead ∧ w.server.running = true

theorem traces_loadRunning (q : Point) (hq : q.live) :
    Traces Step (fun p _ => p = q) loadRunning
      (fun b p w => p = q ∧ w.server.running = b) Bounded := by
  intro p w hp
  subst hp
  cases hs : w.stops with
  | nil =>
    rw [loadRunning_nil hs]
    exact ⟨p,.refl,fun h => nomatch h⟩
  | cons b rest =>
    have hstep : Step (p,w) (p,{ w with stops := rest }) := .action hq (.inputs w.handlers rest)
    rw [loadRunning_cons hs]
    cases b with
    | false => exact ⟨p,.single hstep,rfl,rfl⟩
    | true => exact ⟨p,(ReflTransGen.single hstep).tail (.action hq .stop),rfl,rfl⟩

/-! No piece uses up the bound on the iterations. -/

/-- The program stops for another reason than the bound. -/
def Unbounded {α : Type} (m : Net α) : Prop := ∀ w w', m.run w ≠ (.error .outOfFuel,w')

theorem Unbounded.bind {α β : Type} {m : Net α} {k : α → Net β} (hm : Unbounded m)
    (hk : ∀ a, Unbounded (k a)) : Unbounded (m >>= k) := by
  intro w w' h
  cases hr : m.run w with
  | mk r w1 => cases r with
    | ok a =>
      rw [bind_ok hr] at h
      exact hk a w1 w' h
    | error e =>
      rw [bind_error hr] at h
      cases h
      exact hm w w' hr

theorem Unbounded.of_bind {α β : Type} {m : Net α} {k : α → Net β} {w w' : World}
    (hm : Unbounded m) (h : (m >>= k).run w = (.error .outOfFuel,w')) :
    ∃ a u, m.run w = (.ok a,u) ∧ (k a).run u = (.error .outOfFuel,w') := by
  cases hr : m.run w with
  | mk r u => cases r with
    | ok a =>
      rw [bind_ok hr] at h
      exact ⟨a,u,rfl,h⟩
    | error e =>
      rw [bind_error hr] at h
      cases h
      exact absurd hr (hm w _)

theorem loadRunning_unbounded : Unbounded loadRunning := by
  intro w w' h
  cases hs : w.stops with
  | nil =>
    rw [loadRunning_nil hs] at h
    cases h
  | cons b rest =>
    rw [loadRunning_cons hs] at h
    cases b <;> cases h

theorem removeClient_unbounded (id : ClientId) : Unbounded (removeClient id) := by
  intro w w' h
  have hc := removeClient_cases id w
  rw [h] at hc
  cases hc

theorem messageClient_unbounded (msg : Buffer) (id : ClientId) :
    Unbounded (messageClient msg id) := by
  intro w w' h
  have hc := messageClient_cases msg id w
  rw [h] at hc
  cases hc with
  | cut hf hc hs =>
    have he := (Connection.send_frame _ msg w.server.ec 0 _).2.2 .outOfFuel (by rw [hs])
    cases he

theorem deref_unbounded (i : Nat) : Unbounded (deref i) := by
  intro w w' h
  by_cases hi : ∃ c, w.server.clients[i]? = some (some c)
  · obtain ⟨c,hi⟩ := hi
    rw [deref_entry hi] at h
    cases h
  · rw [deref_crash fun c hc => hi ⟨c,hc⟩] at h
    cases h

theorem messageFrom_unbounded (msg : Buffer) (exclude : ClientId) (n i : Nat) :
    Unbounded (messageFrom msg exclude n i) := by
  induction n generalizing i with
  | zero => exact fun w w' h => by cases h
  | succ n ih =>
    refine (deref_unbounded i).bind fun c => ?_
    by_cases hc : c.id ≠ exclude
    · rw [if_pos hc]
      exact (messageClient_unbounded msg c.id).bind fun _ => ih (i+1)
    · rw [if_neg hc]
      exact ih (i+1)

theorem runHandler_unbounded : Unbounded runHandler := by
  have hnext : Unbounded nextHandler := by
    intro w w' h
    cases hh : w.handlers with
    | nil =>
      rw [nextHandler_nil hh] at h
      cases h
    | cons calls rest =>
      rw [nextHandler_cons hh] at h
      cases h
  refine hnext.bind fun calls => ?_
  induction calls with
  | nil => exact fun w w' h => by cases h
  | cons call calls ih =>
    refine Unbounded.bind ?_ fun _ => ih
    cases call with
    | messageClient msg id => exact messageClient_unbounded msg id
    | messageAllClients msg exclude =>
      exact fun w => messageFrom_unbounded msg exclude w.server.clients.length 0 w
    | removeClient id => exact removeClient_unbounded id
    | stop => exact fun w w' h => by cases h

theorem acceptClient_unbounded : Unbounded acceptClient := by
  intro w w' h
  have hc := acceptClient_cases w
  rw [h] at hc
  cases hc

theorem hasPendingConnection_unbounded : Unbounded hasPendingConnection := by
  intro w w' h
  obtain ⟨b,w1,hr,-⟩ | ⟨w1,hr,-⟩ := hasPendingConnection_quiet w
  · rw [hr] at h; cases h
  · rw [hr] at h; cases h

theorem pollClients_unbounded : Unbounded pollClients := by
  intro w w' h
  obtain ⟨es,w1,hr,-⟩ | ⟨w1,hr,-⟩ := pollClients_cases w
  · rw [hr] at h; cases h
  · rw [hr] at h; cases h

theorem handleEvent_unbounded (e : SocketStatusInfo) : Unbounded (handleEvent e) := by
  intro w w' h
  have hc := handleEvent_cases e w
  rw [h] at hc
  cases hc

theorem destroyClient_unbounded (c : Option ClientInfo) : Unbounded (destroyClient c) := by
  intro w w' h
  obtain ⟨w1,hr,-⟩ | ⟨w1,hr,-⟩ := destroyClient_closes c w
  · rw [hr] at h; cases h
  · rw [hr] at h; cases h

theorem removeIfLoop_unbounded (kept gap rest : List (Option ClientInfo)) :
    Unbounded (removeIfLoop kept gap rest) := by
  induction rest generalizing kept gap with
  | nil => intro w w' h; cases h
  | cons e rest ih =>
    cases e with
    | none => intro w w' h; cases h
    | some c =>
      unfold removeIfLoop
      by_cases hc : c.isConnected = true
      · simp only [hc,Bool.not_true,Bool.false_eq_true,if_false]
        cases gap with
        | nil => exact ih _ _
        | cons target gap => exact (destroyClient_unbounded target).bind fun _ => ih _ _
      · simp only [hc,Bool.not_false,if_true]
        exact ih _ _

theorem removeDisconnected_unbounded : Unbounded removeDisconnected := by
  intro w w'
  unfold removeDisconnected
  rw [run_server_bind]
  exact (removeIfLoop_unbounded [] [] _).bind (fun x w w' h => by cases h) w w'

theorem disconnectClient_unbounded (i : Nat) : Unbounded (disconnectClient i) := by
  intro w w' h
  have hc := disconnectClient_cases i w
  rw [h] at hc
  cases hc

theorem eraseFrom_unbounded (first : Nat) : Unbounded (eraseFrom first) := by
  intro w w'
  unfold eraseFrom
  rw [run_server_bind]
  have hall : ∀ cs : List (Option ClientInfo), Unbounded (cs.forM destroyClient) := by
    intro cs
    induction cs with
    | nil => intro w w' h; cases h
    | cons c cs ih => exact (destroyClient_unbounded c).bind fun _ => ih
  exact (hall _).bind (fun _ w w' h => by cases h) w w'

theorem openAcceptor_unbounded : Unbounded openAcceptor := by
  intro w w' h
  obtain ⟨w1,hr,-⟩ | ⟨e,w1,hr,-,he⟩ := openAcceptor_cases w
  · rw [hr] at h; cases h
  · rw [hr] at h
    cases h
    cases he <;> contradiction

theorem closeAcceptor_unbounded : Unbounded closeAcceptor := by
  intro w w' h
  obtain ⟨a,new,w1,hr,-⟩ | ⟨w1,hr,-⟩ := closeAcceptor_cases w
  · rw [hr] at h; cases h
  · rw [hr] at h; cases h

/-! Each function of server.cpp walks along the steps. -/

theorem traces_piece {α : Type} {m : Net α} {q q' : Point} {P : World → Prop}
    (hstep : ∀ w, P w → Step (q,w) (q'.orDead (m.run w).1,(m.run w).2))
    (hm : Unbounded m) :
    Traces Step (fun p w => p = q ∧ P w) m (fun _ p _ => p = q') Bounded := by
  refine .step ?_ ?_
  · intro p w hp a t hr
    obtain ⟨rfl,hP⟩ := hp
    have h := hstep w hP
    rw [hr] at h
    exact ⟨q',h,rfl⟩
  · intro p w hp e t hr
    obtain ⟨rfl,hP⟩ := hp
    have h := hstep w hP
    rw [hr] at h
    refine ⟨.dead,h,?_⟩
    intro he
    rw [he] at hr
    exact absurd hr (hm w t)

theorem traces_deref {q : Point} (i : Nat) :
    Traces Step (fun p _ => p = q) (deref i) (fun _ p _ => p = q) Bounded := by
  intro p w hp
  by_cases hi : ∃ c, w.server.clients[i]? = some (some c)
  · obtain ⟨c,hi⟩ := hi
    rw [deref_entry hi]
    exact ⟨p,.refl,hp⟩
  · rw [deref_crash fun c hc => hi ⟨c,hc⟩]
    exact ⟨p,.refl,fun h => nomatch h⟩

section Handler
variable (q : Point) (hq : q.live)
include hq

theorem traces_messageClient (msg : Buffer) (id : ClientId) :
    Traces Step (fun p _ => p = q) (messageClient msg id) (fun _ p _ => p = q) Bounded :=
  (traces_piece (P := fun _ => True) (fun _ _ => .action hq (.message msg id))
    (messageClient_unbounded msg id)).weaken fun _ _ hp => ⟨hp,trivial⟩

theorem traces_messageFrom (msg : Buffer) (exclude : ClientId) (n i : Nat) :
    Traces Step (fun p _ => p = q) (messageFrom msg exclude n i) (fun _ p _ => p = q)
      Bounded := by
  induction n generalizing i with
  | zero => exact .pure fun _ _ hp => hp
  | succ n ih =>
    refine (traces_deref i).bind fun c => ?_
    by_cases hc : c.id ≠ exclude
    · rw [if_pos hc]
      exact (traces_messageClient q hq msg c.id).bind fun _ => ih (i+1)
    · rw [if_neg hc]
      exact ih (i+1)

theorem traces_apiCall (call : ApiCall) :
    Traces Step (fun p _ => p = q) (apiCall call) (fun _ p _ => p = q) Bounded := by
  cases call with
  | messageClient msg id => exact traces_messageClient q hq msg id
  | messageAllClients msg exclude =>
    exact .get_bind fun _ => (traces_messageFrom q hq msg exclude _ 0).weaken
      fun _ _ hp => hp.1
  | removeClient id =>
    exact (traces_piece (P := fun _ => True) (fun _ _ => .action hq (.remove id))
      (removeClient_unbounded id)).weaken fun _ _ hp => ⟨hp,trivial⟩
  | stop =>
    refine .step ?_ (fun _ _ _ e t hr => by cases hr)
    intro p w hp a t hr
    subst hp
    cases hr
    exact ⟨p,.action hq .stop,rfl⟩

theorem traces_runHandler :
    Traces Step (fun p _ => p = q) runHandler (fun _ p _ => p = q) Bounded := by
  refine .bind (Q := fun _ p _ => p = q) ?_ fun calls => .forM (traces_apiCall q hq) calls
  intro p w hp
  subst hp
  cases hh : w.handlers with
  | nil =>
    rw [nextHandler_nil hh]
    exact ⟨p,.refl,fun h => nomatch h⟩
  | cons calls rest =>
    rw [nextHandler_cons hh]
    exact ⟨p,.single (.action hq (.inputs rest w.stops)),rfl⟩

end Handler

theorem traces_handleIncomingConnections (fuel : Nat) :
    Traces Step (fun p _ => p = .accepting) (handleIncomingConnections fuel)
      (fun _ p _ => p = .accepting) Bounded := by
  induction fuel with
  | zero =>
    refine (traces_loadRunning .accepting trivial).bind fun b => ?_
    cases b with
    | true => exact .stop fun p w hp _ => ⟨by rw [hp.1]; exact fun h => (nomatch h),hp.2⟩
    | false => exact .pure fun p w hp => hp.1
  | succ fuel ih =>
    refine (traces_loadRunning .accepting trivial).bind fun b => ?_
    cases b with
    | false => exact .pure fun p w hp => hp.1
    | true =>
      have hpending : Traces Step (fun p w => p = .accepting ∧ w.server.running = true)
          hasPendingConnection (fun _ p w => p = .accepting ∧ w.server.running = true)
          Bounded := by
        intro p w hp
        obtain ⟨rfl,hrun⟩ := hp
        have hstep := Step.pending hrun
        obtain ⟨b,w',hr,hq,-⟩ | ⟨w',hr,-⟩ := hasPendingConnection_quiet w
        · rw [hr] at hstep ⊢
          exact ⟨_,.single hstep,rfl,by rw [hq.running,hrun]⟩
        · rw [hr] at hstep ⊢
          exact ⟨_,.single hstep,fun h => nomatch h⟩
      refine hpending.bind fun b => ?_
      cases b with
      | false => exact .pure fun p w hp => hp.1
      | true =>
        refine (traces_piece (fun w hw => .accept hw) acceptClient_unbounded).bind fun b => ?_
        cases b with
        | true => exact (traces_runHandler .accepting trivial).bind fun _ => ih
        | false => exact ih

theorem traces_handleEvents (es : PollResult) :
    Traces Step (fun p _ => p = .events es) (handleEvents es)
      (fun _ p _ => ∃ es, p = .events es) Bounded := by
  induction es with
  | nil => exact .pure fun p w hp => ⟨[],hp⟩
  | cons e es ih =>
    refine (traces_loadRunning (.events (e::es)) trivial).bind fun b => ?_
    cases b with
    | false => exact .pure fun p w hp => ⟨_,hp.1⟩
    | true =>
      refine (traces_piece (fun w hw => .event hw) (handleEvent_unbounded e)).bind fun b => ?_
      cases b with
      | true => exact (traces_runHandler (.events es) trivial).bind fun _ => ih
      | false => exact ih

theorem traces_handleIncomingMessages :
    Traces Step (fun p _ => p = .accepting) handleIncomingMessages
      (fun _ p _ => ∃ es, p = .events es) Bounded := by
  refine .bind (Q := fun es p _ => p = .events es) ?_ traces_handleEvents
  refine .step ?_ ?_
  · intro p w hp es t hr
    subst hp
    exact ⟨_,.poll hr,rfl⟩
  · intro p w hp e t hr
    subst hp
    refine ⟨_,.pollCut hr,?_⟩
    intro he
    rw [he] at hr
    exact absurd hr (pollClients_unbounded w t)

theorem traces_disconnectFrom (first n i : Nat) :
    Traces Step (fun p _ => p = .removing first n i) (disconnectFrom n i)
      (fun _ p _ => ∃ i, p = .removing first 0 i) Bounded := by
  induction n generalizing i with
  | zero => exact .pure fun p w hp => ⟨i,hp⟩
  | succ n ih =>
    refine .bind (Q := fun _ p _ => p = .removing first n (i+1)) ?_ fun _ => ?_
    · exact (traces_piece (P := fun _ => True) (fun _ _ => .disconnect)
        (disconnectClient_unbounded i)).weaken fun _ _ hp => ⟨hp,trivial⟩
    · exact (traces_runHandler (.removing first n (i+1)) trivial).bind fun _ => ih (i+1)

theorem traces_handleDisconnectedClients :
    Traces Step (fun p _ => ∃ es, p = .events es) handleDisconnectedClients
      (fun _ p _ => p = .top) Bounded := by
  refine .bind (Q := fun _ p _ => p = .sweeping) ?_ fun _ => ?_
  · refine .step ?_ (fun _ _ _ e t hr => by cases hr)
    intro p w hp a t hr
    obtain ⟨es,rfl⟩ := hp
    cases hr
    exact ⟨_,.sweep,rfl⟩
  · refine .get_bind fun w => ?_
    dsimp only
    by_cases hd : w.server.hasDisconnectedClients = true
    · rw [if_pos hd]
      refine .bind (Q := fun first p w => p = .removing first (w.server.clients.length-first)
        first) ?_ fun first => .get_bind fun w => ?_
      · refine .step ?_ ?_
        · intro p w' hp first t hr
          obtain ⟨rfl,rfl⟩ := hp
          exact ⟨_,.part hd hr,rfl⟩
        · intro p w' hp e t hr
          obtain ⟨rfl,rfl⟩ := hp
          refine ⟨_,.partCut hr,?_⟩
          intro he
          rw [he] at hr
          exact absurd hr (removeDisconnected_unbounded w' t)
      · refine .bind (Q := fun _ p _ => ∃ i, p = .removing first 0 i) ?_ fun _ => ?_
        · refine (traces_disconnectFrom first _ first).weaken ?_
          intro p w' hp
          rw [hp.1,hp.2]
        · intro p w' hp
          obtain ⟨i,rfl⟩ := hp
          exact traces_piece (P := fun _ => True) (fun _ _ => .erase) (eraseFrom_unbounded first)
            _ w' ⟨rfl,trivial⟩
    · rw [if_neg hd]
      intro p w' hp
      obtain ⟨rfl,rfl⟩ := hp
      exact ⟨.top,.single (.skip (by simpa using hd)),rfl⟩

theorem traces_networkLoop (fuel : Nat) :
    Traces Step (fun p _ => p = .top) (networkLoop fuel) (fun _ p _ => p = .left) Bounded := by
  have hleave : Traces Step (fun p w => p = .top ∧ w.server.running = false)
      (Pure.pure () : Net Unit) (fun _ p _ => p = .left) Bounded := by
    intro p w hp
    obtain ⟨rfl,h⟩ := hp
    exact ⟨.left,.single (.leave h),rfl⟩
  induction fuel with
  | zero =>
    refine (traces_loadRunning .top trivial).bind fun b => ?_
    cases b with
    | true => exact .stop fun p w hp _ => ⟨by rw [hp.1]; exact fun h => (nomatch h),hp.2⟩
    | false => exact hleave
  | succ fuel ih =>
    refine (traces_loadRunning .top trivial).bind fun b => ?_
    cases b with
    | false => exact hleave
    | true =>
      refine .bind (Q := fun _ p _ => p = .accepting) ?_ fun _ => ?_
      · refine .step ?_ (fun _ _ _ e t hr => by cases hr)
        intro p w hp a t hr
        obtain ⟨rfl,h⟩ := hp
        cases hr
        exact ⟨_,.enter h,rfl⟩
      · refine (traces_handleIncomingConnections fuel).bind fun _ => ?_
        refine traces_handleIncomingMessages.bind fun _ => ?_
        exact traces_handleDisconnectedClients.bind fun _ => ih

theorem traces_networkThreadFunction (fuel : Nat) :
    Traces Step (fun p _ => p = .start) (networkThreadFunction fuel) (fun _ p _ => p = .done)
      Bounded := by
  refine .bind (Q := fun _ p _ => p = .top) ?_ fun _ => ?_
  · exact (traces_piece (P := fun _ => True) (fun _ _ => .opening)
      openAcceptor_unbounded).weaken fun _ _ hp => ⟨hp,trivial⟩
  · refine (traces_networkLoop fuel).bind fun _ => ?_
    exact (traces_piece (P := fun _ => True) (fun _ _ => .closing)
      closeAcceptor_unbounded).weaken fun _ _ hp => ⟨hp,trivial⟩

end Server

/-- The end of every run is reachable: at done when the thread function returns, and
with `running_` still set when only the bound on the iterations stops it. -/
theorem Environment.reachable (env : Environment) (fuel : Nat) :
    ∃ p, Reachable (p,(env.run fuel).2) ∧ ((env.run fuel).1 = .ok () → p = .done) ∧
      ((env.run fuel).1 = .error .outOfFuel →
        p ≠ .dead ∧ (env.run fuel).2.server.running = true) := by
  have h := Server.traces_networkThreadFunction fuel .start env.initial rfl
  change Prog.Holds _ _ (env.run fuel) at h
  generalize env.run fuel = r at h ⊢
  cases r with
  | mk r w => cases r with
    | ok a =>
      obtain ⟨p,hp,hdone⟩ := h
      exact ⟨p,⟨env,hp⟩,fun _ => hdone,fun h => nomatch h⟩
    | error e =>
      obtain ⟨p,hp,hb⟩ := h
      exact ⟨p,⟨env,hp⟩,(fun h => nomatch h),fun h => hb (by cases h; rfl)⟩

end Yonaa
