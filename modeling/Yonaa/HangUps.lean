import Yonaa.Polling

/-! The order of the tests in the event loop: what becomes of bytes that lie ready when the
status also tells of an error or a hang-up. -/
namespace Yonaa

theorem steps_log {x y : Point × World} (hx : Reachable x)
    (h : Relation.ReflTransGen Step x y) : x.2.log <+: y.2.log := by
  induction h using Relation.ReflTransGen.head_induction_on with
  | refl => exact List.prefix_refl _
  | head hs _ ih => exact (moves_log (hs.moves hx.passed.base)).trans (ih (hx.step hs))

/-- The bytes go to the data handler under the id, which is not marked before. -/
def PassesOn (id : ClientId) (data : Buffer) (w w' : World) : Prop :=
  ∃ pre post p, w'.log = w.log++pre++⟨.callback (.dataReceive id data),p⟩::post ∧
    ∀ o ∈ pre, o.event ≠ .marked id

theorem not_passesOn {id : ClientId} {data : Buffer} {w w' : World} {pre : List Observation}
    {p : Process} (hlog : w.log++pre++[⟨.marked id,p⟩] <+: w'.log)
    (hpre : ∀ o ∈ pre, ∀ d, o.event ≠ .callback (.dataReceive id d)) : ¬PassesOn id data w w' := by
  intro h
  obtain ⟨pre',post',q,hlog',hpre'⟩ := h
  obtain ⟨post,hpost⟩ := hlog
  rw [hlog',List.append_assoc,List.append_assoc,List.append_assoc] at hpost
  have hcases := List.append_eq_append_iff.mp (List.append_cancel_left hpost)
  obtain ⟨mid,hmid,hrest⟩ | ⟨mid,hmid,hrest⟩ := hcases
  · cases mid with
    | nil => cases hrest
    | cons o mid =>
      cases hrest
      exact hpre' ⟨.marked id,p⟩ (by rw [hmid]; simp) rfl
  · cases mid with
    | nil => cases hrest
    | cons o mid =>
      cases hrest
      exact hpre ⟨.callback (.dataReceive id data),q⟩ (by rw [hmid]; simp) data rfl

structure Ready (e : SocketStatusInfo) (w : World) (c : ClientInfo) (bytes : List Byte) : Prop where
  found : ∃ i, Server.find (fun c => c.fd == e.socketFd) w.server.clients = .found i c
  isOpen : c.conn.isConnected = true
  readable : e.status &&& SocketStatus.readable ≠ 0
  answer : ∃ rest, w.answers = .recv (.ok bytes)::rest
  notEmpty : bytes ≠ []
  size : bytes.length ≤ Connection.maxBufferSize
  running : w.server.running = true
  goes : ∃ stops, w.stops = false::stops

namespace Server
open Prog Net

theorem handleEvents_first {e : SocketStatusInfo} {es : PollResult} {w w' : World} {b : Bool}
    {stops : List Bool} (hx : Reachable (.events (e::es),w)) (hrun : w.server.running = true)
    (hstops : w.stops = false::stops)
    (h : (handleEvent e).run { w with stops := stops } = (.ok b,w')) :
    w'.log <+: ((handleEvents (e::es)).run w).2.log := by
  have hload : loadRunning.run w = (.ok true,{ w with stops := stops }) := by
    rw [loadRunning_cons hstops,if_neg (by simp),hrun]
  have hunfold : handleEvents (e::es) = loadRunning >>= fun b => if b = true then
      (handleEvent e >>= fun b => if b = true then runHandler >>= fun _ => handleEvents es
        else handleEvents es) else pure () := rfl
  rw [hunfold,bind_ok hload,if_pos rfl,bind_ok h]
  have hx1 : Reachable (.events (e::es),{ w with stops := stops }) :=
    hx.step (.action (p := .events (e::es)) trivial (.inputs w.handlers stops))
  have hx2 : Reachable (.events es,w') := by
    have hstep : Step (.events (e::es),{ w with stops := stops }) _ := .event hrun
    rw [h] at hstep
    exact hx1.step hstep
  have htrace : Traces Step (fun p _ => p = .events es)
      (if b = true then runHandler >>= fun _ => handleEvents es else handleEvents es)
      (fun _ p _ => ∃ es, p = .events es) Bounded :=
    .ite (fun _ => (traces_runHandler (.events es) trivial).bind fun _ => traces_handleEvents es)
      fun _ => traces_handleEvents es
  have hwalk := htrace (.events es) w' rfl
  generalize (if b = true then runHandler >>= fun _ => handleEvents es
    else handleEvents es).run w' = r at hwalk ⊢
  cases r with
  | mk r w'' => cases r with
    | ok a =>
      obtain ⟨q,hq,-⟩ := hwalk
      exact steps_log hx2 hq
    | error er =>
      obtain ⟨q,hq,-⟩ := hwalk
      exact steps_log hx2 hq

section Branches
variable {e : SocketStatusInfo} {es : PollResult} {w : World} {c : ClientInfo} {bytes : List Byte}
  (h : Ready e w c bytes)
include h

theorem handleEvent_lost (stops : List Bool)
    (hhup : e.status &&& (SocketStatus.error ||| SocketStatus.hungUp) ≠ 0) :
    ∃ w' p, (handleEvent e).run { w with stops := stops } = (.ok false,w') ∧
      w'.log = w.log++[]++[⟨.marked c.id,p⟩] := by
  obtain ⟨i,hf⟩ := h.found
  obtain ⟨j,d,hid,hr⟩ := handleEvent_hungUp (w := { w with stops := stops }) hf hhup
  refine ⟨_,(({ w with stops := stops } : World).mark j d).toProcess,hr,?_⟩
  rw [World.mark_log,hid,List.append_nil]

theorem handleEvent_read (stops : List Bool)
    (hhup : e.status &&& (SocketStatus.error ||| SocketStatus.hungUp) = 0) :
    ∃ w' o p, (∀ x, o.event ≠ .callback x) ∧ (∀ x, o.event ≠ .marked x) ∧
      (handleEvent e).run { w with stops := stops } = (.ok (!w.server.ec.isSet),w') ∧
      w'.log = w.log++[o]++[⟨if w.server.ec.isSet then .marked c.id
        else .callback (.dataReceive c.id (.ofList bytes)),p⟩] := by
  obtain ⟨i,hf⟩ := h.found
  obtain ⟨rest,ha⟩ := h.answer
  have hmax : Connection.maxBufferSize ≤ maxTransfer := by decide
  have hlt : bytes.length < 2^64 := Nat.lt_of_le_of_lt h.size (by decide)
  have hsize : (Buffer.ofList bytes).size ≠ 0 := by
    rw [Buffer.size,Buffer.data_ofList hlt]
    exact fun h0 => h.notEmpty (List.length_eq_zero_iff.mp h0)
  generalize hw : ({ w with stops := stops } : World) = w1
  have hserver : w1.server = w.server := by rw [← hw]
  have hlog : w1.log = w.log := by rw [← hw]
  obtain ⟨flags,s,hrecv,hkernel,hcalls⟩ := Connection.receive_answered (s := sysPart w1) w1.server.ec 0
    h.isOpen h.notEmpty h.size (Nat.le_trans h.size hmax) (by rw [← hw]; exact ha)
  rw [← hserver] at hf
  have hc := (find_found hf).1
  have hevent : (handleEvent e).run w1 = (if w1.server.ec.isSet || (Buffer.ofList bytes).size == 0
      then removeClient c.id >>= fun _ => pure false
      else emit (.callback (.dataReceive c.id (.ofList bytes))) >>= fun _ => pure true).run
        ((putSys w1 s).withEc w1.server.ec) := by
    unfold handleEvent clientInfoFromNativeSocket
    rw [bind_ok (lookup_found hf)]
    dsimp only
    rw [if_neg (by simpa using hhup),if_pos h.readable,run_server_bind,bind_ok (sys_ok hrecv)]
    dsimp only
    rw [bind_ok (run_setClient _ _ _),bind_ok (run_setEc _ _),withClient_self hc]
  refine ⟨((handleEvent e).run w1).2,
    ⟨.sys (.recv c.conn.socket Connection.maxBufferSize flags bytes.length bytes),w1.toProcess⟩,
    ((handleEvent e).run w1).2.toProcess,(fun x he => by cases he),(fun x he => by cases he),?_⟩
  rw [hevent,← hserver,← hlog]
  by_cases hec : w1.server.ec.isSet = true
  · obtain ⟨j,d,hd,-,hr⟩ := removeClient_found (w := (putSys w1 s).withEc w1.server.ec) hc rfl
      (find_passed hf)
    have hid : d.id = c.id := by simpa using (find_found hd).2
    rw [if_pos (by simp [hec]),bind_ok hr,hec]
    refine ⟨rfl,?_⟩
    rw [← hid]
    simp [hcalls]
  · have hec : w1.server.ec.isSet = false := by simpa using hec
    rw [if_neg (by simpa [hec] using hsize),bind_ok (run_emit _ _),hec]
    refine ⟨rfl,?_⟩
    simp [hcalls]

end Branches

/-- The bytes are passed on exactly if the status tells of neither error nor hang-up and `ec_` is
clear when the loop comes to the event. -/
theorem passesOn_iff {e : SocketStatusInfo} {es : PollResult} {w : World} {c : ClientInfo}
    {bytes : List Byte} (hx : Reachable (.events (e::es),w)) (h : Ready e w c bytes) :
    PassesOn c.id (.ofList bytes) w ((handleEvents (e::es)).run w).2 ↔
      e.status &&& (SocketStatus.error ||| SocketStatus.hungUp) = 0 ∧
        w.server.ec.isSet = false := by
  obtain ⟨stops,hstops⟩ := h.goes
  by_cases hhup : e.status &&& (SocketStatus.error ||| SocketStatus.hungUp) = 0
  · obtain ⟨w',o,p,hcall,hmark,hr,hlog⟩ := handleEvent_read h stops hhup
    have hle := handleEvents_first hx h.running hstops hr
    rw [hlog] at hle
    by_cases hec : w.server.ec.isSet = true
    · rw [if_pos hec] at hle
      refine iff_of_false (not_passesOn hle ?_) (by simp [hec])
      exact List.forall_mem_singleton.mpr fun d => hcall _
    · rw [if_neg hec] at hle
      have hec : w.server.ec.isSet = false := by simpa using hec
      refine iff_of_true ?_ ⟨hhup,hec⟩
      obtain ⟨post,hpost⟩ := hle
      refine ⟨[o],post,p,?_,List.forall_mem_singleton.mpr (hmark _)⟩
      rw [← hpost,List.append_assoc _ [_] post]
      rfl
  · obtain ⟨w',p,hr,hlog⟩ := handleEvent_lost h stops hhup
    have hle := handleEvents_first hx h.running hstops hr
    rw [hlog] at hle
    exact iff_of_false (not_passesOn hle (by simp)) fun hq => hhup hq.1

end Server

namespace Environment
open Server

/-- A client sends a byte; the server's poll then returns the given bits for it. -/
def lastWords (revents : Nat) : Environment where
  port := 5000
  kernel := ⟨[0,1,2],0,[]⟩
  answers := startup++pending 4++[.poll (.ok [0]),.poll (.ok [revents]),.recv (.ok [7])]
  handlers := []
  stops := [false]

def lastWordsPolled (revents : Nat) : World :=
  (pollClients.run (hasPendingConnection.run (acceptClient.run (hasPendingConnection.run
    ((openAcceptor.run (lastWords revents).initial).2.note .iteration)).2).2).2).2

theorem lastWords_reachable (revents : Nat) (h : revents ≠ 0) :
    Reachable (.events [⟨4,ssmFromRevents revents⟩],lastWordsPolled revents) := by
  have h0 : Reachable (.start,(lastWords revents).initial) := ⟨lastWords revents,.refl⟩
  have h1 := h0.step .opening
  have h2 := h1.step (.enter rfl)
  have h3 := h2.step (.pending rfl)
  have h4 := h3.step (.accept rfl)
  have h5 := h4.step (.pending rfl)
  refine h5.step (.poll (Prod.ext ?_ rfl))
  have hresult : PollGroup.result [⟨4,POLLIN,revents⟩] = [⟨4,ssmFromRevents revents⟩] := by
    simp [PollGroup.result,h]
  exact congrArg Except.ok hresult

theorem lastWords_ready (revents : Nat) (h : revents &&& POLLIN ≠ 0) :
    ∃ c, Ready ⟨4,ssmFromRevents revents⟩ (lastWordsPolled revents) c [7] ∧ c.id = 1 := by
  refine ⟨_,⟨⟨0,rfl⟩,rfl,?_,⟨[],rfl⟩,by simp,by decide,rfl,⟨[],rfl⟩⟩,rfl⟩
  have hbit := ssmFromRevents_readable revents
  rw [bne_iff_ne.mpr h] at hbit
  exact bne_iff_ne.mp hbit

end Environment

theorem Server.passesOn_delivered : PassesOn 1 (.ofList [7]) (Environment.lastWordsPolled POLLIN)
    ((handleEvents [⟨4,ssmFromRevents POLLIN⟩]).run (Environment.lastWordsPolled POLLIN)).2 := by
  obtain ⟨c,hready,hid⟩ := Environment.lastWords_ready POLLIN (by decide)
  rw [← hid]
  exact (passesOn_iff (Environment.lastWords_reachable POLLIN (by decide)) hready).mpr ⟨by decide,rfl⟩

/-- The byte of a client that has reset its connection is never read. -/
theorem Server.lastWords_lost : ¬∀ (e : SocketStatusInfo) (es : PollResult) (w : World)
    (c : ClientInfo) (bytes : List Byte), Reachable (.events (e::es),w) → Ready e w c bytes →
    w.server.ec.isSet = false →
    PassesOn c.id (.ofList bytes) w ((handleEvents (e::es)).run w).2 := by
  intro h
  have hx := Environment.lastWords_reachable (POLLIN ||| POLLHUP) (by decide)
  obtain ⟨c,hready,-⟩ := Environment.lastWords_ready (POLLIN ||| POLLHUP) (by decide)
  have hpassed := h _ _ _ _ _ hx hready rfl
  obtain ⟨w',p,hr,hlog⟩ := handleEvent_lost hready [] (by decide)
  have hle := handleEvents_first hx hready.running rfl hr
  rw [hlog] at hle
  exact not_passesOn hle (by simp) hpassed

end Yonaa
