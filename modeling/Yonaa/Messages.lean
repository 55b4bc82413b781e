import Yonaa.Moves
import Yonaa.Registry
import Yonaa.Sends

/-! Messages to clients: the calls of ::send that are made for a message, and the clients
that are marked because of them. -/
namespace Yonaa

def Event.sends : Event → Option SysCall
  | .sys (.send fd offered flags n) => some (.send fd offered flags n)
  | _ => none

def World.sendsSince (w w' : World) : List SysCall :=
  observed Event.sends (w'.log.drop w.log.length)

def SendFailed (calls : List SysCall) : Prop :=
  ∃ fd offered flags, SysCall.send fd offered flags (-1) ∈ calls

theorem not_sendFailed_nil : ¬SendFailed [] := by
  intro h
  obtain ⟨fd,offered,flags,hmem⟩ := h
  cases hmem

def World.holding (clients : List ClientInfo) (answers : List Answer) : World where
  server := { Server.create 80 with
    running := true
    hasDisconnectedClients := clients.any fun c => !c.isConnected
    clients := clients.map some
    pollGroup := ⟨clients.map fun c => ⟨c.fd,POLLIN,0⟩,POLLIN⟩ }
  nextAvailableId := .ofNat (clients.length+1)
  kernel := ⟨clients.map (·.fd),0,[]⟩
  answers := answers
  handlers := []
  stops := []
  log := []

theorem observed_sends {calls : List SysCall} (h : ∀ x ∈ calls, x.isSend) (p : Process) :
    observed Event.sends (calls.map fun c => ⟨.sys c,p⟩) = calls := by
  induction calls with
  | nil => rfl
  | cons x calls ih =>
    have htail := ih fun y hy => h y (List.mem_cons_of_mem x hy)
    have hx := h x List.mem_cons_self
    cases x with
    | send fd offered flags n =>
      rw [List.map_cons,observed_cons,htail]
      rfl
    | _ => exact hx.elim

theorem World.sendsSince_eq {w w' : World} (new : List Observation) (h : w'.log = w.log++new) :
    w.sendsSince w' = observed Event.sends new := by
  rw [sendsSince,h,List.drop_left]

section Send
open Connection
variable {c : Connection} {data : Buffer}

theorem Connection.Chunks.not_failed {fd : Int} {flags n m : Nat} {calls : List SysCall}
    (h : Chunks fd data flags n calls m) : ¬SendFailed calls := by
  induction h with
  | nil n => exact not_sendFailed_nil
  | @cons n k m calls hk hn h ih =>
    intro hf
    obtain ⟨fd,offered,flags,hmem⟩ := hf
    cases List.mem_cons.mp hmem with
    | inl heq =>
      injection heq
      omega
    | inr hmem => exact ih ⟨fd,offered,flags,hmem⟩

/-- On an open connection and with a clear code, only a call of ::send that fails sets the
code. -/
theorem Connection.send_fails (flags : Nat) (hc : c.isConnected = true) (hd : data.size ≠ 0)
    {s : SysState} (hs : s.calls = []) :
    (∀ ec s', (c.send data .clear flags).run s = (.ok ec, s') →
      (ec.isSet = true ↔ SendFailed s'.calls)) ∧
    ∀ e s', (c.send data .clear flags).run s = (.error e, s') → ¬SendFailed s'.calls := by
  obtain ⟨sendFlags,h⟩ := send_open .clear flags hc hd s
  generalize (c.send data .clear flags).run s = r at h
  refine ⟨?_,?_⟩
  · intro ec s' hr
    subst hr
    cases h with
    | sent h hfds hcalls =>
      rw [hcalls,hs,List.nil_append]
      exact iff_of_false (by simp) h.not_failed
    | @failed calls m _ e h hm hfds hcalls =>
      have hlast : SysCall.send c.socket (data.data.drop m) sendFlags (-1) ∈ s'.calls := by
        rw [hcalls]
        exact List.mem_append_right _ List.mem_cons_self
      exact iff_of_true (ErrorCode.isSet_errno e) ⟨_,_,_,hlast⟩
  · intro e s' hr
    subst hr
    cases h with
    | cut h hm hfds hcalls =>
      rw [hcalls,hs,List.nil_append]
      exact h.not_failed

end Send

namespace Server
open Net

section Messaged
variable {msg : Buffer} {id : ClientId} {w : World} {r : Except Halt Unit × World}

theorem Messaged.passes (h : Messaged msg id w r)
    (hno : ∀ i c, find (fun c => c.id == id) w.server.clients = .found i c →
      c.isConnected = false) :
    w.sendsSince r.2 = [] ∧ r.2.server.clients = w.server.clients := by
  have hcon : ∀ {i c}, find (fun c => c.id == id) w.server.clients = .found i c →
      c.isConnected = true → False := by
    intro i c hf hc
    rw [hno i c hf] at hc
    cases hc
  cases h with
  | passed h =>
    refine ⟨?_,rfl⟩
    rw [World.sendsSince_eq _ (List.append_assoc _ _ _)]
    rfl
  | crash h =>
    refine ⟨?_,rfl⟩
    rw [World.sendsSince_eq _ rfl]
    rfl
  | sent hf hc => exact (hcon hf hc).elim
  | failed hf hc => exact (hcon hf hc).elim
  | cut hf hc => exact (hcon hf hc).elim

theorem Messaged.sends {i : Nat} {c : ClientInfo} (h : Messaged msg id w r)
    (hf : find (fun c => c.id == id) w.server.clients = .found i c) (hc : c.isConnected = true) :
    w.sendsSince r.2 =
      ((c.conn.send msg w.server.ec).run (sysPart (w.note (.message id msg)))).2.calls := by
  have hcalls : ∀ x ∈ ((c.conn.send msg w.server.ec).run
      (sysPart (w.note (.message id msg)))).2.calls, x.isSend := by
    obtain ⟨-,⟨calls,hcalls,hall⟩,-⟩ :=
      Connection.send_frame c.conn msg w.server.ec 0 (sysPart (w.note (.message id msg)))
    rw [hcalls]
    exact hall
  cases h with
  | passed h =>
    rw [h i c hf] at hc
    cases hc
  | crash h =>
    rw [hf] at h
    cases h
  | @sent _ _ ec s hf' _ hs _ =>
    cases hf.symm.trans hf'
    rw [hs] at hcalls ⊢
    rw [World.sendsSince_eq (⟨.message id msg,w.toProcess⟩::
      ((s.calls.map fun x => ⟨.sys x,w.toProcess⟩)++[⟨.messaged id,_⟩])) (by simp; rfl)]
    simp [observed_sends hcalls,Event.sends]
  | @failed _ _ ec s hf' _ hs _ =>
    cases hf.symm.trans hf'
    rw [hs] at hcalls ⊢
    rw [World.sendsSince_eq (⟨.message id msg,w.toProcess⟩::
      ((s.calls.map fun x => ⟨.sys x,w.toProcess⟩)++[⟨.marked c.id,_⟩,⟨.messaged id,_⟩]))
      (by simp; exact ⟨rfl,rfl⟩)]
    simp [observed_sends hcalls,Event.sends]
  | @cut _ _ e s hf' _ hs =>
    cases hf.symm.trans hf'
    rw [hs] at hcalls ⊢
    rw [World.sendsSince_eq (⟨.message id msg,w.toProcess⟩::
      s.calls.map fun x => ⟨.sys x,w.toProcess⟩) (by simp)]
    simp [observed_sends hcalls,Event.sends]

end Messaged

/-- Entry i, holding c, is connected and is marked for removal in w'. -/
structure Marked (w' : World) (i : Nat) (c : ClientInfo) : Prop where
  connected : c.isConnected = true
  cleared : ∃ c' : ClientInfo, w'.server.clients[i]? = some (some c') ∧ c'.isConnected = false
  flagged : w'.server.hasDisconnectedClients = true

/-- From w to w' the client with the id is marked exactly if it is connected and a call of
::send failed, and every other client keeps `is_connected`. -/
structure OnlyFailures (id : ClientId) (w w' : World) : Prop where
  marks : ∀ (i : Nat) (c : ClientInfo), w.server.clients[i]? = some (some c) → c.id = id →
    (Marked w' i c ↔ c.isConnected = true ∧ SendFailed (w.sendsSince w'))
  others : ∀ (i : Nat) (c : ClientInfo), w.server.clients[i]? = some (some c) → c.id ≠ id →
    ∃ c' : ClientInfo, w'.server.clients[i]? = some (some c') ∧ c'.isConnected = c.isConnected

theorem OnlyFailures.unchanged {id : ClientId} {w w' : World}
    (hcs : w'.server.clients = w.server.clients) (hsends : ¬SendFailed (w.sendsSince w')) :
    OnlyFailures id w w' := by
  constructor
  · intro i c hi _
    refine iff_of_false ?_ (fun h => hsends h.2)
    intro hm
    obtain ⟨c',hi',hc'⟩ := hm.cleared
    rw [hcs,hi] at hi'
    cases hi'
    rw [hm.connected] at hc'
    cases hc'
  · intro i c hi _
    exact ⟨c,by rw [hcs]; exact hi,rfl⟩

theorem OnlyFailures.marked {id : ClientId} {w w' : World} {j : Nat} {d : ClientInfo}
    (hids : ((entries w.server.clients).map (·.id)).Nodup)
    (hj : w.server.clients[j]? = some (some d)) (hdid : d.id = id) (hd : d.isConnected = true)
    (hcs : w'.server.clients = w.server.clients.set j (some { d with isConnected := false }))
    (hflag : w'.server.hasDisconnectedClients = true) (hsends : SendFailed (w.sendsSince w')) :
    OnlyFailures id w w' := by
  subst hdid
  have hset : w'.server.clients[j]? = some (some { d with isConnected := false }) := by
    rw [hcs,List.getElem?_set_self (List.getElem?_eq_some_iff.mp hj).1]
  constructor
  · intro i c hi hid
    have hij : i = j := by
      by_contra hne
      exact pairwise_at (fun _ _ h => h.symm) hi hj hne (List.pairwise_map.mp hids) hid
    subst hij
    cases hi.symm.trans hj
    exact iff_of_true ⟨hd,⟨_,hset,rfl⟩,hflag⟩ ⟨hd,hsends⟩
  · intro i c hi hid
    have hij : j ≠ i := by
      intro hij
      subst hij
      cases hi.symm.trans hj
      exact hid rfl
    exact ⟨c,by rw [hcs,List.getElem?_set_ne hij]; exact hi,rfl⟩

section Failures
variable {msg : Buffer} {id : ClientId} {w : World} (hec : w.server.ec = .clear)
  (hids : ((entries w.server.clients).map (·.id)).Nodup)
  (hopen : ∀ c ∈ entries w.server.clients, c.isConnected = true → c.conn.isConnected = true)
include hec hids hopen

theorem messageClient_onlyFailures (hmsg : msg.size ≠ 0) :
    OnlyFailures id w ((messageClient msg id).run w).2 := by
  have h := messageClient_cases msg id w
  generalize (messageClient msg id).run w = r at h
  by_cases hno : ∀ i c, find (fun c => c.id == id) w.server.clients = .found i c →
      c.isConnected = false
  · obtain ⟨hsends,hcs⟩ := h.passes hno
    refine .unchanged hcs ?_
    rw [hsends]
    exact not_sendFailed_nil
  · simp only [not_forall,Bool.not_eq_false] at hno
    obtain ⟨i,c,hf,hc⟩ := hno
    have hi := (find_found hf).1
    have hid : c.id = id := by simpa using (find_found hf).2
    have hfails := Connection.send_fails 0 (hopen c (mem_of_getElem? hi) hc) hmsg
      (s := sysPart (w.note (.message id msg))) rfl
    rw [← hec] at hfails
    have hsends := h.sends hf hc
    cases h with
    | passed h => exact .unchanged rfl (by rw [h i c hf] at hc; cases hc)
    | crash h => rw [hf] at h; cases h
    | sent hf' _ hs hclear =>
      cases hf.symm.trans hf'
      refine .unchanged rfl ?_
      rw [hsends,hs,← hfails.1 _ _ hs,hclear]
      simp
    | failed hf' _ hs hset =>
      cases hf.symm.trans hf'
      refine .marked hids hi hid hc rfl rfl ?_
      rw [hsends,hs]
      exact (hfails.1 _ _ hs).mp hset
    | cut hf' _ hs =>
      cases hf.symm.trans hf'
      refine .unchanged rfl ?_
      rw [hsends,hs]
      exact hfails.2 _ _ hs

/-- Only a failing call of ::send disconnects a client, but that an empty message disconnects
the client it is for. -/
theorem onlyFailures_iff : OnlyFailures id w ((messageClient msg id).run w).2 ↔
    msg.size ≠ 0 ∨ ∀ i c, find (fun c => c.id == id) w.server.clients = .found i c →
      c.isConnected = false := by
  have hcases := messageClient_cases msg id w
  constructor
  · intro h
    by_contra hnot
    simp only [not_or,not_not,not_forall,Bool.not_eq_false] at hnot
    obtain ⟨hsize,i,c,hf,hc⟩ := hnot
    have hi := (find_found hf).1
    have hid : c.id = id := by simpa using (find_found hf).2
    have hguard := Connection.send_guard (c := c.conn) w.server.ec 0 (Or.inr hsize)
      (sysPart (w.note (.message id msg)))
    have hmarks := h.marks i c hi hid
    rw [hcases.sends hf hc,hguard] at hmarks
    have hmarked : Marked ((messageClient msg id).run w).2 i c := by
      generalize (messageClient msg id).run w = r at hcases
      cases hcases with
      | passed h => rw [h i c hf] at hc; cases hc
      | crash h => rw [hf] at h; cases h
      | sent hf' _ hs hclear =>
        cases hf.symm.trans hf'
        cases hguard.symm.trans hs
        cases hclear
      | failed hf' _ hs _ =>
        cases hf.symm.trans hf'
        have hset := List.getElem?_set_self (List.getElem?_eq_some_iff.mp hi).1
          (a := some { c with isConnected := false })
        exact ⟨hc,⟨_,hset,rfl⟩,rfl⟩
      | cut hf' _ hs =>
        cases hf.symm.trans hf'
        cases hguard.symm.trans hs
    exact not_sendFailed_nil (hmarks.mp hmarked).2
  · intro h
    by_cases hmsg : msg.size ≠ 0
    · exact messageClient_onlyFailures hec hids hopen hmsg
    · obtain ⟨hsends,hcs⟩ := hcases.passes (h.resolve_left hmsg)
      refine .unchanged hcs ?_
      rw [hsends]
      exact not_sendFailed_nil

end Failures

/-- The connection of the first of two clients breaks while a message is sent to it. -/
theorem onlyFailures_broken : OnlyFailures 1 (.holding [⟨1,{ socket := 4 },4,true⟩,
      ⟨2,{ socket := 5 },5,true⟩] [.send (.error ⟨32,by decide⟩)])
    ((messageClient (.ofList [7]) 1).run (.holding [⟨1,{ socket := 4 },4,true⟩,
      ⟨2,{ socket := 5 },5,true⟩] [.send (.error ⟨32,by decide⟩)])).2 := by
  refine (onlyFailures_iff rfl (by decide) ?_).mpr (Or.inl (by decide))
  intro c hc _
  have hmem : c ∈ [(⟨1,{ socket := 4 },4,true⟩ : ClientInfo),⟨2,{ socket := 5 },5,true⟩] := hc
  simp only [List.mem_cons,List.not_mem_nil,or_false] at hmem
  obtain rfl | rfl := hmem
  · rfl
  · rfl

/-- An empty message is sent to a connected client: no call is made, but the client is marked. -/
theorem emptyMessage_marks : ¬∀ (msg : Buffer) (id : ClientId) (w : World),
    w.server.ec = .clear → ((entries w.server.clients).map (·.id)).Nodup →
    (∀ c ∈ entries w.server.clients, c.isConnected = true → c.conn.isConnected = true) →
    OnlyFailures id w ((messageClient msg id).run w).2 := by
  intro hall
  have h := hall {} 1 (.holding [⟨1,{ socket := 4 },4,true⟩] []) rfl (by decide) (fun c hc _ => by
    rw [List.mem_singleton.mp hc]
    rfl)
  have hmarked := (h.marks 0 ⟨1,{ socket := 4 },4,true⟩ rfl rfl).mp
    ⟨rfl,⟨⟨1,{ socket := 4 },4,false⟩,rfl,rfl⟩,rfl⟩
  exact not_sendFailed_nil hmarked.2

end Server
end Yonaa
