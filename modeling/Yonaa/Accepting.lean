import Yonaa.Runs

/-! The accept loop against a queue of pending connections: when it comes to an end, and when
it goes round for ever. -/
namespace Yonaa

/-- How a call of ::accept ends. A failing call takes the connection out of the queue or leaves
it there. -/
inductive AcceptOutcome where
  | accepted
  | discarded
  | kept
deriving DecidableEq

def later (os : Nat → AcceptOutcome) : Nat → AcceptOutcome := fun i => os (i+1)

def served (os : Nat → AcceptOutcome) : Nat → Nat
  | 0 => 0
  | k+1 => (if os 0 = .kept then 0 else 1)+served (later os) k

def reportsInput (pfds : List PollFd) (n : Int) : Bool :=
  decide (0 < n) && pfds.any fun pfd => pfd.revents &&& POLLIN != 0

/-- The history fits n pending connections, none of which arrives later, and these outcomes of
::accept: a ::poll that succeeds reports input exactly if a connection is pending. -/
def Consistent : List Observation → Nat → (Nat → AcceptOutcome) → Prop
  | [], _, _ => True
  | o::log, n, os =>
    match o.event with
    | .sys (.poll pfds m) =>
      (m < 0 ∨ reportsInput pfds m = decide (0 < n)) ∧ Consistent log n os
    | .sys (.accept _ result) => (os 0 = .accepted ↔ result ≠ -1) ∧
      Consistent log (if os 0 = .kept then n else n-1) (later os)
    | _ => Consistent log n os

/-- With n connections pending and these outcomes the accept phase returns within a bound on
its iterations, whatever the handlers do. It ends before only where its inputs end. -/
def PhaseEnds (n : Nat) (os : Nat → AcceptOutcome) : Prop :=
  ∃ bound, ∀ fuel ≥ bound, ∀ w : World, w.server.running = true →
    w.server.acceptor.isOpen = true → none ∉ w.server.clients →
    (∃ new, ((Server.handleIncomingConnections fuel).run w).2.log = w.log++new ∧
      Consistent new n os) →
    ((Server.handleIncomingConnections fuel).run w).1 = .ok () ∨
      ((Server.handleIncomingConnections fuel).run w).1 = .error .cut

def Event.isApart : Event → Prop
  | .sys (.poll _ _) | .sys (.accept _ _) => False
  | _ => True

theorem consistent_apart {new log : List Observation} {n : Nat} {os : Nat → AcceptOutcome}
    (h : ∀ o ∈ new, o.event.isApart) : Consistent (new++log) n os ↔ Consistent log n os := by
  induction new with
  | nil => exact Iff.rfl
  | cons o new ih =>
    have ho := h o List.mem_cons_self
    rw [List.cons_append,Consistent]
    split
    next he => rw [he] at ho; exact ho.elim
    next he => rw [he] at ho; exact ho.elim
    next => exact ih fun o' ho' => h o' (List.mem_cons_of_mem o ho')

theorem consistent_round {pre post rest : List Observation} {pfds : List PollFd} {m fd result : Int}
    {p p' : Process} {n : Nat} {os : Nat → AcceptOutcome} (hpre : ∀ o ∈ pre, o.event.isApart)
    (hpost : ∀ o ∈ post, o.event.isApart) (hin : reportsInput pfds m = true)
    (h : Consistent (pre++⟨.sys (.poll pfds m),p⟩::⟨.sys (.accept fd result),p'⟩::post++rest) n os) :
    0 < n ∧ Consistent rest (if os 0 = .kept then n else n-1) (later os) := by
  rw [List.append_assoc] at h
  obtain ⟨hpoll,-,hrest⟩ := (consistent_apart hpre).mp h
  have hm : 0 < m := by
    have hin' := hin
    simp only [reportsInput,Bool.and_eq_true,decide_eq_true_eq] at hin'
    exact hin'.1
  refine ⟨?_,(consistent_apart hpost).mp hrest⟩
  have hready := hpoll.resolve_left (by omega)
  rw [hin] at hready
  exact of_decide_eq_true hready.symm

namespace Server
open Net Prog

/-! What the pieces of the loop add to the history. -/

def Adds {α : Type} (P : Event → Prop) (m : Net α) : Prop :=
  ∀ w, (m.run w).2.server.acceptor = w.server.acceptor ∧
    ∃ new, (m.run w).2.log = w.log++new ∧ ∀ o ∈ new, P o.event

section Adds
variable {α β : Type} {P Q : Event → Prop}

theorem Adds.mono {m : Net α} (h : Adds P m) (hPQ : ∀ e, P e → Q e) : Adds Q m := by
  intro w
  obtain ⟨ha,new,hlog,hnew⟩ := h w
  exact ⟨ha,new,hlog,fun o ho => hPQ o.event (hnew o ho)⟩

theorem Adds.nothing {m : Net α} (h : ∀ w, (m.run w).2.server.acceptor = w.server.acceptor ∧
    (m.run w).2.log = w.log) : Adds P m :=
  fun w => ⟨(h w).1,[],by rw [(h w).2,List.append_nil],by simp⟩

theorem Adds.pure (a : α) : Adds P (Pure.pure a : Net α) := .nothing fun _ => ⟨rfl,rfl⟩

theorem Adds.emit {e : Event} (h : P e) : Adds P (emit e) :=
  fun w => ⟨rfl,[⟨e,w.toProcess⟩],rfl,by simpa using h⟩

theorem Adds.bind {m : Net α} {k : α → Net β} (hm : Adds P m) (hk : ∀ a, Adds P (k a)) :
    Adds P (m >>= k) := by
  intro w
  obtain ⟨ha,new,hlog,hnew⟩ := hm w
  cases hr : m.run w with
  | mk r u =>
    rw [hr] at ha hlog
    cases r with
    | error e =>
      rw [bind_error hr]
      exact ⟨ha,new,hlog,hnew⟩
    | ok a =>
      rw [bind_ok hr]
      obtain ⟨ha',new',hlog',hnew'⟩ := hk a u
      exact ⟨ha'.trans ha,new++new',by rw [hlog',hlog,List.append_assoc],
        List.forall_mem_append.mpr ⟨hnew,hnew'⟩⟩

theorem Adds.server_bind {k : Server → Net α} (h : ∀ s, Adds P (k s)) : Adds P (server >>= k) :=
  fun w => h w.server w

theorem Adds.ite {c : Prop} [Decidable c] {m k : Net α} (hm : Adds P m) (hk : Adds P k) :
    Adds P (if c then m else k) := by
  by_cases hc : c
  · rw [if_pos hc]
    exact hm
  · rw [if_neg hc]
    exact hk

theorem Adds.forM {body : β → Net PUnit} (h : ∀ b, Adds P (body b)) (bs : List β) :
    Adds P (bs.forM body) := by
  induction bs with
  | nil => exact .pure _
  | cons b bs ih => exact (h b).bind fun _ => ih

theorem Adds.sys {m : Sys α} (h : ∀ s, ∃ calls, (m.run s).2.calls = s.calls++calls ∧
    ∀ c ∈ calls, P (.sys c)) : Adds P (sys m) := by
  intro w
  obtain ⟨calls,hcalls,hP⟩ := h (sysPart w)
  refine ⟨rfl,_,rfl,?_⟩
  intro o ho
  obtain ⟨c,hc,rfl⟩ := List.mem_map.mp ho
  exact hP c (by rwa [hcalls] at hc)

end Adds

theorem setServer_adds {P : Event → Prop} {f : Server → Server}
    (h : ∀ s, (f s).acceptor = s.acceptor) : Adds P (setServer f) :=
  .nothing fun w => ⟨h w.server,rfl⟩

theorem loadRunning_adds : Adds Event.isApart loadRunning := by
  intro w
  cases hs : w.stops with
  | nil =>
    rw [loadRunning_nil hs]
    exact ⟨rfl,[],(List.append_nil _).symm,by simp⟩
  | cons b rest =>
    rw [loadRunning_cons hs]
    cases b with
    | false => exact ⟨rfl,[],(List.append_nil _).symm,by simp⟩
    | true => exact ⟨rfl,_,rfl,List.forall_mem_singleton.mpr trivial⟩

theorem lookup_adds {P : Event → Prop} (p : ClientInfo → Bool) : Adds P (lookup p) := by
  refine .server_bind fun s => ?_
  cases find p s.clients with
  | missing => exact .pure none
  | crash => exact .nothing fun w => ⟨rfl,rfl⟩
  | found i c => exact .pure (some (i,c))

theorem removeClient_adds (id : ClientId) : Adds Event.isApart (removeClient id) := by
  refine (lookup_adds _).bind fun x => ?_
  cases x with
  | none => exact .pure ()
  | some x =>
    refine .bind (setServer_adds fun _ => rfl) fun _ => ?_
    exact .bind (setServer_adds fun _ => rfl) fun _ => .emit trivial

theorem messageClient_adds (msg : Buffer) (id : ClientId) :
    Adds Event.isApart (messageClient msg id) := by
  refine .bind (.emit trivial) fun _ => .bind ?_ fun _ => .emit trivial
  refine (lookup_adds _).bind fun x => ?_
  cases x with
  | none => exact .pure ()
  | some x =>
    refine .ite (.pure ()) (.server_bind fun s => .bind (.sys fun s' => ?_) fun ec =>
      .bind (setServer_adds fun _ => rfl) fun _ => .ite (removeClient_adds id) (.pure ()))
    obtain ⟨-,⟨calls,hcalls,hsends⟩,-⟩ := Connection.send_frame x.2.conn msg s.ec 0 s'
    refine ⟨calls,hcalls,?_⟩
    intro c hc
    have hsend := hsends c hc
    cases c with
    | send _ _ _ _ => trivial
    | _ => exact hsend.elim

theorem runHandler_adds : Adds Event.isApart runHandler := by
  have hnext : Adds Event.isApart nextHandler := by
    refine .nothing fun w => ?_
    cases hh : w.handlers with
    | nil =>
      rw [nextHandler_nil hh]
      exact ⟨rfl,rfl⟩
    | cons calls rest =>
      rw [nextHandler_cons hh]
      exact ⟨rfl,rfl⟩
  have hderef : ∀ i, Adds Event.isApart (deref i) := by
    refine fun i => .nothing fun w => ?_
    by_cases hi : ∃ c, w.server.clients[i]? = some (some c)
    · obtain ⟨c,hi⟩ := hi
      rw [deref_entry hi]
      exact ⟨rfl,rfl⟩
    · rw [deref_crash fun c hc => hi ⟨c,hc⟩]
      exact ⟨rfl,rfl⟩
  have hfrom : ∀ msg exclude n i, Adds Event.isApart (messageFrom msg exclude n i) := by
    intro msg exclude n
    induction n with
    | zero => exact fun i => .pure ()
    | succ n ih =>
      intro i
      exact (hderef i).bind fun c =>
        .ite ((messageClient_adds msg c.id).bind fun _ => ih (i+1)) (ih (i+1))
  refine hnext.bind fun calls => .forM (fun call => ?_) calls
  cases call with
  | messageClient msg id => exact messageClient_adds msg id
  | messageAllClients msg exclude => exact .server_bind fun s => hfrom msg exclude _ 0
  | removeClient id => exact removeClient_adds id
  | stop => exact .bind (setServer_adds fun _ => rfl) fun _ => .emit trivial

theorem destroyClient_adds (c : ClientInfo) : Adds Event.isApart (destroyClient (some c)) := by
  refine .sys fun s => ?_
  by_cases hc : c.conn.isConnected = true
  · obtain ⟨s',hr,-,hcalls,-⟩ | ⟨s',hr,hs⟩ := Connection.destroy_open hc s
    · refine ⟨[.close c.conn.socket],by rw [hr]; exact hcalls,?_⟩
      intro x hx
      rw [List.mem_singleton.mp hx]
      trivial
    · exact ⟨[],by rw [hr,List.append_nil]; exact hs.calls,by simp⟩
  · exact ⟨[],by rw [Connection.destroy_closed (by simpa using hc),List.append_nil],by simp⟩

/-- The body of the accept loop once `accept` has returned. -/
def register (id : ClientId) (x : Connection × ErrorCode) : Net Bool := do
  setEc x.2
  if x.2.isSet then
    setNextAvailableId (· - 1)
    destroyClient (some { id := id, conn := x.1, fd := x.1.nativeSocket })
    return false
  else
    setServer fun s =>
      { s with
        clients := s.clients ++ [some
          { id := id, conn := x.1, fd := x.1.nativeSocket, isConnected := true }]
        pollGroup := s.pollGroup.addSocket x.1.nativeSocket }
    emit (.callback (.connect id))
    return true

theorem acceptClient_run (w : World) : acceptClient.run w =
    (sys (w.server.acceptor.accept w.server.ec) >>= register w.nextAvailableId).run w.withTaken := rfl

theorem register_adds (id : ClientId) (x : Connection × ErrorCode) :
    Adds Event.isApart (register id x) := by
  have hnext : Adds Event.isApart (setNextAvailableId (· - 1)) := .nothing fun _ => ⟨rfl,rfl⟩
  refine .bind (setServer_adds fun _ => rfl) fun _ => .ite ?_ ?_
  · exact hnext.bind fun _ => (destroyClient_adds _).bind fun _ => .pure false
  · refine .bind (setServer_adds fun _ => rfl) fun _ => ?_
    exact .bind (.emit trivial) fun _ => .pure true

theorem acceptClient_tries {w w' : World} {b : Bool} (hopen : w.server.acceptor.isOpen = true)
    (h : acceptClient.run w = (.ok b, w')) : w'.server.acceptor = w.server.acceptor ∧
      ∃ fd result p new, w'.log = w.log++⟨.sys (.accept fd result),p⟩::new ∧
        ∀ o ∈ new, o.event.isApart := by
  rw [acceptClient_run] at h
  obtain ⟨x,u,hsys,hregister⟩ := of_bind_ok h
  obtain ⟨ha,new,hlog,hnew⟩ := register_adds w.nextAvailableId x u
  rw [hregister] at ha hlog
  have haccepted := Acceptor.accept_open w.server.ec hopen (sysPart w.withTaken)
  rw [run_sys] at hsys
  cases hr : (w.server.acceptor.accept w.server.ec).run (sysPart w.withTaken) with
  | mk r s =>
    rw [hr] at hsys haccepted
    obtain ⟨result,hcalls⟩ : ∃ result, s.calls = [.accept w.server.acceptor.socket result] := by
      cases haccepted with
      | accepted hfd hconn hfds hcalls hans hrest => exact ⟨_,hcalls⟩
      | failed e hfds hcalls hans => exact ⟨_,hcalls⟩
      | naming hnew hcalls hans => exact ⟨_,hcalls⟩
      | cut hs => cases hsys
    obtain rfl := congrArg Prod.snd hsys
    refine ⟨ha,w.server.acceptor.socket,result,w.withTaken.toProcess,new,?_,hnew⟩
    rw [hlog,World.putSys_log,hcalls,List.append_assoc]
    rfl

theorem hasPendingConnection_reports {w w' : World} {b : Bool}
    (h : hasPendingConnection.run w = (.ok b, w')) : w'.server.acceptor = w.server.acceptor ∧
      ∃ pfds n p, w'.log = w.log++[⟨.sys (.poll pfds n),p⟩] ∧ b = reportsInput pfds n := by
  unfold hasPendingConnection at h
  rw [run_server_bind,run_sys] at h
  obtain rfl := congrArg Prod.snd h
  have hok := congrArg Prod.fst h
  unfold Acceptor.hasPendingConnection pollSocket at hok ⊢
  rw [run_bind_bind] at hok ⊢
  obtain ⟨pfds,n,s,hpoll,hfds,-,hcalls,-⟩ | ⟨s,hpoll,-⟩ :=
    Sys.poll_cases [⟨w.server.acceptor.socket,POLLIN ||| POLLOUT,0⟩] (sysPart w)
  · rw [bind_ok hpoll] at hok ⊢
    obtain ⟨pfd,rfl⟩ : ∃ pfd, pfds = [pfd] :=
      List.length_eq_one_iff.mp (by simpa using congrArg List.length hfds)
    refine ⟨rfl,[pfd],n,w.toProcess,?_,?_⟩
    · change w.log++s.calls.map _ = _
      rw [hcalls]
      rfl
    · have hb : ((if n > 0 then ssmFromRevents pfd.revents else SocketStatus.none) &&&
          SocketStatus.readable != 0) = b := Except.ok.inj hok
      rw [← hb]
      by_cases hn : n > 0
      · rw [if_pos hn,ssmFromRevents_readable]
        simp [reportsInput,hn]
      · rw [if_neg hn]
        simp [reportsInput,hn,SocketStatus.none]
  · rw [bind_error hpoll] at hok
    cases hok

theorem handleIncomingConnections_succ (fuel : Nat) : handleIncomingConnections (fuel+1) =
    loadRunning >>= fun b => if b = true then hasPendingConnection >>= fun b => if b = true then
      acceptClient >>= fun b => if b = true then runHandler >>= fun _ =>
        handleIncomingConnections fuel else handleIncomingConnections fuel
      else pure () else pure () := rfl

theorem handleIncomingConnections_adds (fuel : Nat) :
    Adds (fun _ => True) (handleIncomingConnections fuel) := by
  have hload : Adds (fun _ => True) loadRunning := loadRunning_adds.mono fun _ _ => trivial
  have hpending : Adds (fun _ => True) hasPendingConnection := by
    refine .server_bind fun s => .sys fun s' => ?_
    obtain ⟨b,pfds,n,s1,hr,-,hcalls,-⟩ | ⟨s1,hr,hs⟩ := s.acceptor.hasPendingConnection_cases s'
    · exact ⟨_,by rw [hr]; exact hcalls,by simp⟩
    · exact ⟨[],by rw [hr,List.append_nil]; exact hs.calls,by simp⟩
  have haccept : Adds (fun _ => True) acceptClient := by
    intro w
    have hcalls : ∀ s, ∃ calls, ((w.server.acceptor.accept w.server.ec).run s).2.calls =
        s.calls++calls ∧ ∀ c ∈ calls, True := by
      intro s
      by_cases hopen : w.server.acceptor.isOpen = true
      · have h := Acceptor.accept_open w.server.ec hopen s
        generalize (w.server.acceptor.accept w.server.ec).run s = r at h ⊢
        cases h with
        | accepted hfd hconn hfds hcalls hans hrest => exact ⟨_,hcalls,by simp⟩
        | failed e hfds hcalls hans => exact ⟨_,hcalls,by simp⟩
        | naming hnew hcalls hans => exact ⟨_,hcalls,by simp⟩
        | cut hs => exact ⟨[],by rw [hs.calls,List.append_nil],by simp⟩
      · rw [Acceptor.accept_closed w.server.ec (by simpa using hopen)]
        exact ⟨[],(List.append_nil _).symm,by simp⟩
    rw [acceptClient_run]
    exact (Adds.sys hcalls).bind
      (fun x => (register_adds w.nextAvailableId x).mono fun _ _ => trivial) w.withTaken
  induction fuel with
  | zero => exact hload.bind fun b => .ite (.nothing fun _ => ⟨rfl,rfl⟩) (.pure ())
  | succ fuel ih =>
    rw [handleIncomingConnections_succ]
    refine hload.bind fun b => .ite (hpending.bind fun b => .ite ?_ (.pure ())) (.pure ())
    refine haccept.bind fun b => .ite ?_ ih
    exact (runHandler_adds.mono fun _ _ => trivial).bind fun _ => ih

/-- A round that uses up fuel has polled the listening socket, which had input, and called
::accept. -/
theorem handleIncomingConnections_round {fuel : Nat} {w w' : World}
    (hopen : w.server.acceptor.isOpen = true)
    (h : (handleIncomingConnections (fuel+1)).run w = (.error .outOfFuel, w')) :
    ∃ w1 pre pfds n p fd result p' post, w1.server.acceptor = w.server.acceptor ∧
      w1.log = w.log++(pre++⟨.sys (.poll pfds n),p⟩::⟨.sys (.accept fd result),p'⟩::post) ∧
      (∀ o ∈ pre, o.event.isApart) ∧ (∀ o ∈ post, o.event.isApart) ∧
      reportsInput pfds n = true ∧
      (handleIncomingConnections fuel).run w1 = (.error .outOfFuel, w') := by
  rw [handleIncomingConnections_succ] at h
  obtain ⟨b,w0,hload,h⟩ := loadRunning_unbounded.of_bind h
  obtain ⟨ha0,pre,hlog0,hpre⟩ := loadRunning_adds w
  rw [hload] at ha0 hlog0
  cases b with
  | false => cases h
  | true =>
    rw [if_pos rfl] at h
    obtain ⟨b,w1,hpending,h⟩ := hasPendingConnection_unbounded.of_bind h
    obtain ⟨ha1,pfds,n,p,hlog1,hb⟩ := hasPendingConnection_reports hpending
    cases b with
    | false => cases h
    | true =>
      rw [if_pos rfl] at h
      obtain ⟨b,w2,haccept,h⟩ := acceptClient_unbounded.of_bind h
      have hopen1 : w1.server.acceptor.isOpen = true := by rw [ha1,ha0]; exact hopen
      obtain ⟨ha2,fd,result,p',post,hlog2,hpost⟩ := acceptClient_tries hopen1 haccept
      have hlog : w2.log = w.log++(pre++⟨.sys (.poll pfds n),p⟩::
          ⟨.sys (.accept fd result),p'⟩::post) := by
        rw [hlog2,hlog1,hlog0]
        simp
      have ha : w2.server.acceptor = w.server.acceptor := ha2.trans (ha1.trans ha0)
      cases b with
      | false => exact ⟨w2,pre,pfds,n,p,fd,result,p',post,ha,hlog,hpre,hpost,hb.symm,h⟩
      | true =>
        rw [if_pos rfl] at h
        obtain ⟨⟨⟩,w3,hhandler,h⟩ := runHandler_unbounded.of_bind h
        obtain ⟨ha3,more,hlog3,hmore⟩ := runHandler_adds w2
        rw [hhandler] at ha3 hlog3
        refine ⟨w3,pre,pfds,n,p,fd,result,p',post++more,ha3.trans ha,?_,hpre,
          List.forall_mem_append.mpr ⟨hpost,hmore⟩,hb.symm,h⟩
        rw [hlog3,hlog]
        simp

/-- Such a round had a pending connection, and the rest of the run fits what is left. -/
theorem handleIncomingConnections_served {fuel n : Nat} {os : Nat → AcceptOutcome} {w w' : World}
    (hopen : w.server.acceptor.isOpen = true) {new : List Observation}
    (hlog : w'.log = w.log++new) (hnew : Consistent new n os)
    (h : (handleIncomingConnections (fuel+1)).run w = (.error .outOfFuel, w')) :
    0 < n ∧ ∃ w1 rest, w1.server.acceptor = w.server.acceptor ∧ w'.log = w1.log++rest ∧
      Consistent rest (if os 0 = .kept then n else n-1) (later os) ∧
      (handleIncomingConnections fuel).run w1 = (.error .outOfFuel, w') := by
  obtain ⟨w1,pre,pfds,m,p,fd,result,p',post,hacceptor,hlog1,hpre,hpost,hin,hrun⟩ :=
    handleIncomingConnections_round hopen h
  obtain ⟨-,rest,hrest,-⟩ := handleIncomingConnections_adds fuel w1
  rw [hrun] at hrest
  have hall : w'.log = w.log++
      (pre++⟨.sys (.poll pfds m),p⟩::⟨.sys (.accept fd result),p'⟩::post++rest) := by
    rw [← List.append_assoc,← hlog1]
    exact hrest
  rw [List.append_cancel_left (hlog.symm.trans hall)] at hnew
  obtain ⟨hpos,hnext⟩ := consistent_round hpre hpost hin hnew
  exact ⟨hpos,w1,rest,hacceptor,hrest,hnext,hrun⟩

theorem le_served_succ {k n : Nat} {os : Nat → AcceptOutcome} : n ≤ served os (k+1) ↔
    (if os 0 = .kept then n else n-1) ≤ served (later os) k := by
  rw [served]
  by_cases h0 : os 0 = .kept
  · rw [if_pos h0,if_pos h0]
    omega
  · rw [if_neg h0,if_neg h0]
    omega

/-- The loop ends after k rounds if k outcomes empty the queue. -/
theorem handleIncomingConnections_ends {k fuel n : Nat} {os : Nat → AcceptOutcome}
    {w w' : World} (hk : n ≤ served os k) (hfuel : k < fuel)
    (hopen : w.server.acceptor.isOpen = true) {new : List Observation}
    (hlog : w'.log = w.log++new) (hnew : Consistent new n os) :
    (handleIncomingConnections fuel).run w ≠ (.error .outOfFuel, w') := by
  intro h
  induction k generalizing fuel n os w new with
  | zero =>
    obtain ⟨fuel,rfl⟩ : ∃ f, fuel = f+1 := ⟨fuel-1,by omega⟩
    have hpos := (handleIncomingConnections_served hopen hlog hnew h).1
    rw [served] at hk
    omega
  | succ k ih =>
    obtain ⟨fuel,rfl⟩ : ∃ f, fuel = f+1 := ⟨fuel-1,by omega⟩
    obtain ⟨-,w1,rest,hacceptor,hlog1,hnext,hrun⟩ :=
      handleIncomingConnections_served hopen hlog hnew h
    exact ih (le_served_succ.mp hk) (by omega) (by rw [hacceptor]; exact hopen) hlog1 hnext hrun

/-! No round dereferences an empty pointer. -/

/-- The list has at least n entries, and no empty pointers. -/
def Filled (n : Nat) (w : World) : Prop := n ≤ w.server.clients.length ∧ none ∉ w.server.clients

theorem Filled.mark {n i : Nat} {c : ClientInfo} {w : World} (h : Filled n w) :
    Filled n (w.mark i c) := by
  refine ⟨?_,fun hnull => ?_⟩
  · exact h.1.trans_eq List.length_set.symm
  · cases List.mem_or_eq_of_mem_set hnull with
    | inl hnull => exact h.2 hnull
    | inr heq => cases heq

/-- The program keeps such a list, and stops only where its inputs or the bound end. -/
def Fills {α : Type} (n : Nat) (m : Net α) : Prop :=
  ∀ w, Filled n w → Holds (fun _ => Filled n) (fun e _ => e = .cut ∨ e = .outOfFuel) (m.run w)

section Fills
variable {α β : Type} {n : Nat}

theorem Fills.bind {m : Net α} {k : α → Net β} (hm : Fills n m) (hk : ∀ a, Fills n (k a)) :
    Fills n (m >>= k) := fun w hw => (hm w hw).bind fun a w' hw' => hk a w' hw'

theorem Fills.pure (a : α) : Fills n (Pure.pure a : Net α) := fun _ hw => hw

theorem Fills.ite {c : Prop} [Decidable c] {m k : Net α} (hm : Fills n m) (hk : Fills n k) :
    Fills n (if c then m else k) := by
  by_cases hc : c
  · rw [if_pos hc]
    exact hm
  · rw [if_neg hc]
    exact hk

theorem Fills.forM {body : β → Net PUnit} (h : ∀ b, Fills n (body b)) (bs : List β) :
    Fills n (bs.forM body) := by
  induction bs with
  | nil => exact .pure _
  | cons b bs ih => exact (h b).bind fun _ => ih

theorem Fills.sys {m : Sys α} (h : ∀ s e, (m.run s).1 = .error e → e = .cut) :
    Fills n (sys m) := by
  intro w hw
  have hcut := h (sysPart w)
  rw [run_sys]
  cases hr : (m.run (sysPart w)).1 with
  | ok a => exact hw
  | error e => exact Or.inl (hcut e hr)

end Fills

theorem loadRunning_fills (n : Nat) : Fills n loadRunning := by
  intro w hw
  cases hs : w.stops with
  | nil =>
    rw [loadRunning_nil hs]
    exact Or.inl rfl
  | cons b rest =>
    rw [loadRunning_cons hs]
    cases b <;> exact hw

theorem removeClient_fills (n : Nat) (id : ClientId) : Fills n (removeClient id) := by
  intro w hw
  have h := removeClient_cases id w
  generalize (removeClient id).run w = r at h ⊢
  cases h with
  | missing hf => exact hw
  | crash hf => exact absurd hf (find_not_crash hw.2)
  | marked hf => exact hw.mark

theorem messageClient_fills (n : Nat) (msg : Buffer) (id : ClientId) :
    Fills n (messageClient msg id) := by
  intro w hw
  have h := messageClient_cases msg id w
  generalize (messageClient msg id).run w = r at h ⊢
  cases h with
  | passed hf => exact hw
  | crash hf => exact absurd hf (find_not_crash hw.2)
  | sent hf hc hs hec => exact hw
  | failed hf hc hs hec => exact Filled.mark (w := w) hw
  | cut hf hc hs => exact Or.inl ((Connection.send_frame _ msg w.server.ec 0 _).2.2 _ (by rw [hs]))

theorem messageFrom_fills {n m i : Nat} (msg : Buffer) (exclude : ClientId) (h : i+m ≤ n) :
    Fills n (messageFrom msg exclude m i) := by
  induction m generalizing i with
  | zero => exact .pure ()
  | succ m ih =>
    have hnext := ih (i := i+1) (by omega)
    intro w hw
    have hlt : i < w.server.clients.length := by
      have hlen := hw.1
      omega
    obtain ⟨c,hi⟩ : ∃ c, w.server.clients[i]? = some (some c) := by
      cases hget : w.server.clients[i] with
      | none => exact absurd (hget ▸ List.getElem_mem hlt) hw.2
      | some c => exact ⟨c,by rw [List.getElem?_eq_getElem hlt,hget]⟩
    rw [messageFrom,bind_ok (deref_entry hi)]
    exact Fills.ite ((messageClient_fills n msg c.id).bind fun _ => hnext) hnext w hw

theorem runHandler_fills (n : Nat) : Fills n runHandler := by
  have hnext : Fills n nextHandler := by
    intro w hw
    cases hh : w.handlers with
    | nil =>
      rw [nextHandler_nil hh]
      exact Or.inl rfl
    | cons calls rest =>
      rw [nextHandler_cons hh]
      exact hw
  refine hnext.bind fun calls => .forM (fun call => ?_) calls
  cases call with
  | messageClient msg id => exact messageClient_fills n msg id
  | messageAllClients msg exclude =>
    intro w hw
    have hall := messageFrom_fills msg exclude (Nat.le_of_eq (Nat.zero_add _)) w
      ⟨Nat.le_refl w.server.clients.length,hw.2⟩
    exact hall.mono (fun _ _ h => ⟨hw.1.trans h.1,h.2⟩) fun _ _ h => h
  | removeClient id => exact removeClient_fills n id
  | stop => exact fun w hw => hw

theorem destroyClient_fills (n : Nat) (c : ClientInfo) : Fills n (destroyClient (some c)) := by
  refine .sys fun s e he => ?_
  by_cases hc : c.conn.isConnected = true
  · obtain ⟨s',hr,-⟩ | ⟨s',hr,-⟩ := Connection.destroy_open hc s
    · rw [hr] at he
      cases he
    · rw [hr] at he
      cases he
      rfl
  · rw [Connection.destroy_closed (by simpa using hc)] at he
    cases he

theorem register_fills (n : Nat) (id : ClientId) (x : Connection × ErrorCode) :
    Fills n (register id x) := by
  have hec : Fills n (setEc x.2) := fun w hw => hw
  have hnext : Fills n (setNextAvailableId (· - 1)) := fun w hw => hw
  refine hec.bind fun _ => .ite ?_ ?_
  · exact hnext.bind fun _ => (destroyClient_fills n _).bind fun _ => .pure false
  · intro w hw
    refine ⟨hw.1.trans (List.sublist_append_left _ _).length_le,fun hnull => ?_⟩
    cases List.mem_append.mp hnull with
    | inl hnull => exact hw.2 hnull
    | inr hnull => cases List.mem_singleton.mp hnull

theorem acceptClient_fills (n : Nat) : Fills n acceptClient := by
  have haccept : ∀ w : World, Fills n (sys (w.server.acceptor.accept w.server.ec)) := by
    refine fun w => .sys fun s e he => ?_
    by_cases hopen : w.server.acceptor.isOpen = true
    · have h := Acceptor.accept_open w.server.ec hopen s
      generalize (w.server.acceptor.accept w.server.ec).run s = r at h he
      cases h with
      | accepted hfd hconn hfds hcalls hans hrest => cases he
      | failed e hfds hcalls hans => cases he
      | naming hnew hcalls hans =>
        cases he
        rfl
      | cut hs =>
        cases he
        rfl
    · rw [Acceptor.accept_closed w.server.ec (by simpa using hopen)] at he
      cases he
  intro w hw
  rw [acceptClient_run]
  exact (haccept w).bind (register_fills n w.nextAvailableId) w.withTaken hw

theorem handleIncomingConnections_fills (fuel n : Nat) :
    Fills n (handleIncomingConnections fuel) := by
  have hpending : Fills n hasPendingConnection := by
    intro w hw
    unfold hasPendingConnection
    rw [run_server_bind]
    refine Fills.sys (fun s e he => ?_) w hw
    obtain ⟨b,pfds,m,s',hr,-⟩ | ⟨s',hr,-⟩ := w.server.acceptor.hasPendingConnection_cases s
    · rw [hr] at he
      cases he
    · rw [hr] at he
      cases he
      rfl
  induction fuel with
  | zero =>
    exact (loadRunning_fills n).bind fun b => .ite (fun w hw => Or.inr rfl) (.pure ())
  | succ fuel ih =>
    rw [handleIncomingConnections_succ]
    refine (loadRunning_fills n).bind fun b => .ite ?_ (.pure ())
    refine hpending.bind fun b => .ite ?_ (.pure ())
    refine (acceptClient_fills n).bind fun b => .ite ?_ ih
    exact (runHandler_fills n).bind fun _ => ih

/-! A queue that is not emptied. -/

def fed (w : World) (as : List Answer) (hs : List (List ApiCall)) (ss : List Bool) : World :=
  { w with answers := as, handlers := hs, stops := ss }

/-- With these inputs first, m returns a and leads from w to v, whatever inputs follow. -/
def Takes {α : Type} (w : World) (as : List Answer) (hs : List (List ApiCall)) (ss : List Bool)
    (m : Net α) (a : α) (v : World) : Prop :=
  ∀ as' hs' ss', m.run (fed w (as++as') (hs++hs') (ss++ss')) = (.ok a, fed v as' hs' ss')

theorem Takes.bind {α β : Type} {w v u : World} {as as' : List Answer}
    {hs hs' : List (List ApiCall)} {ss ss' : List Bool} {m : Net α} {k : α → Net β} {a : α} {b : β}
    (hm : Takes w as hs ss m a v) (hk : Takes v as' hs' ss' (k a) b u) :
    Takes w (as++as') (hs++hs') (ss++ss') (m >>= k) b u := by
  intro as'' hs'' ss''
  rw [List.append_assoc,List.append_assoc,List.append_assoc,bind_ok (hm _ _ _)]
  exact hk as'' hs'' ss''

theorem loadRunning_takes {w : World} (hrun : w.server.running = true) :
    Takes w [] [] [false] loadRunning true w := by
  intro as hs ss
  have hload := loadRunning_cons (w := fed w as hs (false::ss)) rfl
  rw [if_neg (by simp)] at hload
  rw [← hrun]
  exact hload

theorem sys_takes {α : Type} {m : Sys α} {w : World} {as : List Answer} {a : α} {kernel : Kernel}
    {calls : List SysCall}
    (h : ∀ rest, m.run ⟨w.kernel,as++rest,[]⟩ = (.ok a, ⟨kernel,rest,calls⟩)) :
    Takes w as [] [] (sys m) a (putSys w ⟨kernel,[],calls⟩) := by
  intro as' hs' ss'
  have hrun : m.run (sysPart (fed w (as++as') hs' ss')) = (.ok a, ⟨kernel,as',calls⟩) := h as'
  exact sys_ok hrun

theorem server_takes {α : Type} {k : Server → Net α} {w v : World} {as : List Answer}
    {hs : List (List ApiCall)} {ss : List Bool} {a : α} (h : Takes w as hs ss (k w.server) a v) :
    Takes w as hs ss (server >>= k) a v := h

def polledInput (a : Acceptor) : SysCall := .poll [⟨a.socket,POLLIN ||| POLLOUT,POLLIN⟩] 1

theorem hasPendingConnection_takes (w : World) :
    Takes w [.poll (.ok [POLLIN])] [] [] hasPendingConnection true
      (putSys w ⟨w.kernel,[],[polledInput w.server.acceptor]⟩) := by
  refine server_takes (sys_takes fun rest => ?_)
  have hvalue : ((if (1 : Int) > 0 then ssmFromRevents POLLIN else SocketStatus.none) &&&
      SocketStatus.readable != 0) = true := by decide
  rw [← hvalue]
  rfl

theorem runHandler_takes (w : World) : Takes w [] [[]] [] runHandler () w := fun _ _ _ => rfl

theorem accept_takes {a : Acceptor} (hopen : a.isOpen = true) (o : AcceptOutcome)
    (ec : ErrorCode) (kernel : Kernel) : ∃ as x kernel' result,
      (∀ rest, (a.accept ec).run ⟨kernel,as++rest,[]⟩ =
        (.ok x, ⟨kernel',rest,[.accept a.socket result]⟩)) ∧ (o = .accepted ↔ result ≠ -1) := by
  by_cases ho : o = .accepted
  · obtain ⟨fd,h0,hfd⟩ := (Set.Ioi_infinite (0 : Int)).exists_notMem_finset kernel.fds.toFinset
    have hpos : 0 < fd := h0
    have hnew : 0 ≤ fd ∧ fd ∉ kernel.fds := ⟨Int.le_of_lt hpos,by simpa using hfd⟩
    have haccept : ∀ rest, (Sys.accept a.socket).run
        ⟨kernel,.accept (.ok fd) (inetAddress 127 0 0 1)::rest,[]⟩ =
        (.ok (fd, inetAddress 127 0 0 1),
          ⟨{ kernel with fds := fd::kernel.fds },rest,[.accept a.socket fd]⟩) := by
      intro rest
      have hfresh := Sys.fresh_new (s := ⟨kernel,rest,[]⟩) hnew
      have hask : (Sys.ask Answer.asAccept).run
          ⟨kernel,.accept (.ok fd) (inetAddress 127 0 0 1)::rest,[]⟩ =
          (.ok (.ok fd, inetAddress 127 0 0 1), ⟨kernel,rest,[]⟩) := rfl
      unfold Sys.accept
      rw [bind_ok hask]
      exact bind_ok hfresh
    refine ⟨[.accept (.ok fd) (inetAddress 127 0 0 1),
        .getname (.ok ()) (inetAddress 127 0 0 1),.getsockopt (.ok ()) 6],
      (⟨fd,.fromNativeAddress 6 (inetAddress 127 0 0 1),
        .fromNativeAddress a.localEndpoint.protocol (inetAddress 127 0 0 1)⟩,ec),
      { kernel with fds := fd::kernel.fds },fd,fun rest => ?_,iff_of_true ho (by omega)⟩
    simp only [Acceptor.accept,hopen,Bool.not_true,Bool.false_eq_true,if_false]
    rw [List.cons_append,bind_ok (haccept _)]
    dsimp only
    rw [if_neg (by omega)]
    rfl
  · refine ⟨[.accept (.error ⟨1,by decide⟩) (inetAddress 127 0 0 1)],({},.assign 1),
      { kernel with errno := 1 },-1,fun rest => ?_,iff_of_false ho (by simp)⟩
    simp only [Acceptor.accept,hopen,Bool.not_true,Bool.false_eq_true,if_false]
    rfl

theorem destroyClient_takes (c : ClientInfo) (w : World) : ∃ as v post,
    Takes w as [] [] (destroyClient (some c)) () v ∧ v.server = w.server ∧
      v.log = w.log++post ∧ ∀ o ∈ post, o.event.isApart := by
  by_cases hc : c.conn.isConnected = true
  · have hrun : ∀ rest, c.conn.destroy.run
        ⟨w.kernel,[.shutdown (.ok ()),.close (.ok ())]++rest,[]⟩ =
        (.ok (), ⟨⟨w.kernel.fds.filter (· ≠ c.conn.socket),w.kernel.errno,w.kernel.setUps⟩,rest,
          [.close c.conn.socket]⟩) := by
      intro rest
      have hdisconnect := Connection.disconnect_answered (s := ⟨w.kernel,_,[]⟩) hc
        (rfl : [Answer.shutdown (.ok ()),.close (.ok ())]++rest = _)
      simp only [Connection.destroy,hc,if_true]
      exact bind_ok hdisconnect
    refine ⟨_,_,_,sys_takes hrun,rfl,rfl,?_⟩
    intro o ho
    rw [List.mem_singleton.mp ho]
    trivial
  · refine ⟨[],w,[],fun as hs ss => ?_,rfl,(List.append_nil _).symm,by simp⟩
    exact destroyClient_closed (by simpa [Connection.isConnected] using hc) _

theorem register_takes (id : ClientId) (x : Connection × ErrorCode) (w : World) : ∃ as b v post,
    Takes w as [] [] (register id x) b v ∧ v.server.running = w.server.running ∧
      v.server.acceptor = w.server.acceptor ∧ v.log = w.log++post ∧
      ∀ o ∈ post, o.event.isApart := by
  by_cases hset : x.2.isSet = true
  · obtain ⟨as,v,post,htakes,hserver,hlog,hpost⟩ :=
      destroyClient_takes { id := id, conn := x.1, fd := x.1.nativeSocket }
        { w.withEc x.2 with nextAvailableId := w.nextAvailableId-1 }
    refine ⟨as,false,v,post,fun as' hs' ss' => ?_,by rw [hserver]; rfl,by rw [hserver]; rfl,hlog,
      hpost⟩
    unfold register
    simp only [hset,if_true]
    exact bind_ok (htakes as' hs' ss')
  · have hclear : x.2.isSet = false := by simpa using hset
    refine ⟨[],true,((w.withEc x.2).withServer fun s =>
      { s with
        clients := s.clients++[some
          { id := id, conn := x.1, fd := x.1.nativeSocket, isConnected := true }]
        pollGroup := s.pollGroup.addSocket x.1.nativeSocket }).note (.callback (.connect id)),_,
      fun as' hs' ss' => ?_,rfl,rfl,rfl,?_⟩
    · unfold register
      simp only [hclear,Bool.false_eq_true,if_false]
      rfl
    · intro o ho
      rw [List.mem_singleton.mp ho]
      trivial

theorem acceptClient_takes (o : AcceptOutcome) {w : World}
    (hopen : w.server.acceptor.isOpen = true) : ∃ as b v result p post,
    Takes w as [] [] acceptClient b v ∧ v.server.running = w.server.running ∧
      v.server.acceptor = w.server.acceptor ∧
      v.log = w.log++⟨.sys (.accept w.server.acceptor.socket result),p⟩::post ∧
      (∀ x ∈ post, x.event.isApart) ∧ (o = .accepted ↔ result ≠ -1) := by
  obtain ⟨as,x,kernel,result,haccept,ho⟩ := accept_takes hopen o w.server.ec w.kernel
  have hsys : Takes w.withTaken as [] [] (sys (w.server.acceptor.accept w.server.ec)) x
      (putSys w.withTaken ⟨kernel,[],[.accept w.server.acceptor.socket result]⟩) :=
    sys_takes haccept
  obtain ⟨as',b,v,post,hregister,hrun,hacceptor,hlog,hpost⟩ := register_takes w.nextAvailableId x
    (putSys w.withTaken ⟨kernel,[],[.accept w.server.acceptor.socket result]⟩)
  refine ⟨as++as',b,v,result,w.withTaken.toProcess,post,fun as'' hs'' ss'' => ?_,hrun,hacceptor,?_,
    hpost,ho⟩
  · exact (hsys.bind hregister) as'' hs'' ss''
  · rw [hlog,World.putSys_log,List.append_assoc]
    rfl

theorem handleIncomingConnections_takes (o : AcceptOutcome) (fuel : Nat) {w : World}
    (hrun : w.server.running = true) (hopen : w.server.acceptor.isOpen = true) :
    ∃ as hs v result p p' post, v.server.running = true ∧
      v.server.acceptor = w.server.acceptor ∧
      v.log = w.log++⟨.sys (polledInput w.server.acceptor),p⟩::
        ⟨.sys (.accept w.server.acceptor.socket result),p'⟩::post ∧
      (∀ x ∈ post, x.event.isApart) ∧ (o = .accepted ↔ result ≠ -1) ∧
      ∀ as' hs' ss', (handleIncomingConnections (fuel+1)).run
          (fed w (as++as') (hs++hs') (false::ss')) =
        (handleIncomingConnections fuel).run (fed v as' hs' ss') := by
  obtain ⟨as,b,v,result,p,post,haccept,hrun',hacceptor,hlog,hpost,ho⟩ := acceptClient_takes o
    (w := putSys w ⟨w.kernel,[],[polledInput w.server.acceptor]⟩) hopen
  refine ⟨.poll (.ok [POLLIN])::as,if b then [[]] else [],v,result,w.toProcess,p,post,
    hrun'.trans hrun,hacceptor,?_,hpost,ho,?_⟩
  · rw [hlog,World.putSys_log,List.append_assoc]
    rfl
  · intro as' hs' ss'
    have hload := loadRunning_takes hrun (.poll (.ok [POLLIN])::as++as')
      ((if b then [[]] else [])++hs') ss'
    have hpending := hasPendingConnection_takes w (as++as') ((if b then [[]] else [])++hs') ss'
    have hregister := haccept as' ((if b then [[]] else [])++hs') ss'
    rw [handleIncomingConnections_succ]
    refine (bind_ok hload).trans ((bind_ok hpending).trans ((bind_ok hregister).trans ?_))
    cases b with
    | false => rfl
    | true => exact bind_ok (runHandler_takes v as' hs' ss')

/-- While the outcomes leave a connection pending the loop goes round as often as one likes. -/
theorem handleIncomingConnections_goesOn {n : Nat} {os : Nat → AcceptOutcome}
    (hnever : ∀ k, served os k < n) (fuel : Nat) {w : World} (hrun : w.server.running = true)
    (hopen : w.server.acceptor.isOpen = true) : ∃ as hs ss w' new,
    (handleIncomingConnections fuel).run (fed w as hs ss) = (.error .outOfFuel, w') ∧
      w'.log = w.log++new ∧ Consistent new n os := by
  induction fuel generalizing n os w with
  | zero =>
    exact ⟨[],[],[false],fed w [] [] [],[],bind_ok (loadRunning_takes hrun [] [] []),
      (List.append_nil _).symm,trivial⟩
  | succ fuel ih =>
    obtain ⟨as,hs,v,result,p,p',post,hrun',hacceptor,hlog,hpost,ho,hround⟩ :=
      handleIncomingConnections_takes (os 0) fuel hrun hopen
    have hnever' : ∀ k, served (later os) k < if os 0 = .kept then n else n-1 := by
      intro k
      exact Nat.not_le.mp fun hle => Nat.not_le.mpr (hnever (k+1)) (le_served_succ.mpr hle)
    obtain ⟨as',hs',ss',w',new,hloop,hlog',hnew⟩ :=
      ih hnever' hrun' (by rw [hacceptor]; exact hopen)
    refine ⟨as++as',hs++hs',false::ss',w',_,(hround as' hs' ss').trans hloop,
      hlog'.trans ((congrArg (·++new) hlog).trans (List.append_assoc _ _ _)),?_⟩
    have hpos : 0 < n := hnever 0
    have hready : reportsInput [⟨w.server.acceptor.socket,POLLIN ||| POLLOUT,POLLIN⟩] 1 = true := by
      simp [reportsInput,POLLIN]
    exact ⟨Or.inr (hready.trans (decide_eq_true hpos).symm),ho,(consistent_apart hpost).mpr hnew⟩

def listening : World where
  server := { Server.create 80 with running := true, acceptor := { socket := 3 } }
  nextAvailableId := 1
  kernel := ⟨[3],0,[]⟩
  answers := []
  handlers := []
  stops := []
  log := []

theorem not_phaseEnds {n : Nat} {os : Nat → AcceptOutcome} (hnever : ∀ k, served os k < n) :
    ¬PhaseEnds n os := by
  intro hends
  obtain ⟨bound,hbound⟩ := hends
  obtain ⟨as,hs,ss,w',new,hrun,hlog,hnew⟩ :=
    handleIncomingConnections_goesOn hnever bound (w := listening) rfl rfl
  have hend := hbound bound (Nat.le_refl bound) (fed listening as hs ss) rfl rfl
    (List.not_mem_nil (a := none)) ⟨new,by rw [hrun]; exact hlog,hnew⟩
  rw [hrun] at hend
  cases hend with
  | inl hok => cases hok
  | inr hcut => cases hcut

/-- The accept phase comes to an end exactly if finitely many calls of ::accept take all
pending connections out of the queue. -/
theorem phaseEnds_iff (n : Nat) (os : Nat → AcceptOutcome) :
    PhaseEnds n os ↔ ∃ k, n ≤ served os k := by
  constructor
  · intro hends
    by_contra hnot
    exact not_phaseEnds (fun k => Nat.lt_of_not_le fun hk => hnot ⟨k,hk⟩) hends
  · intro hk
    obtain ⟨k,hk⟩ := hk
    refine ⟨k+1,fun fuel hfuel w _ hopen hnull hconsistent => ?_⟩
    obtain ⟨new,hlog,hnew⟩ := hconsistent
    have hfills := handleIncomingConnections_fills fuel 0 w ⟨Nat.zero_le _,hnull⟩
    cases hr : (handleIncomingConnections fuel).run w with
    | mk r w' => cases r with
      | ok _ => exact Or.inl rfl
      | error e =>
        rw [hr] at hfills hlog
        obtain rfl | rfl := hfills
        · exact Or.inr rfl
        · exact absurd hr
            (handleIncomingConnections_ends hk (Nat.lt_of_succ_le hfuel) hopen hlog hnew)

theorem served_kept (k : Nat) : served (fun _ => .kept) k = 0 := by
  induction k with
  | zero => rfl
  | succ k ih =>
    rw [served,if_pos rfl,Nat.zero_add]
    exact ih

/-- One connection is pending, and ::accept fails again and again without taking it. -/
theorem exhausted_never_ends : ¬∀ (n : Nat) (os : Nat → AcceptOutcome), PhaseEnds n os := by
  intro hall
  exact not_phaseEnds (fun k => by rw [served_kept]; exact Nat.zero_lt_one)
    (hall 1 fun _ => .kept)

end Server
end Yonaa
