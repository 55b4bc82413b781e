import Yonaa.Machine
import Yonaa.Overloads

/-! client.cpp: the functions of the network thread, and the two threads of a client as a
machine whose acts are single operations of the source. A call of a connection's function, such
as `send` with all its ::send calls, is one operation: the other thread does nothing while it
runs. What a handler does is an act that comes before the next operation of the network
thread. -/
namespace Yonaa
open Machine

structure Client where
  running : Bool
  ec : ErrorCode := .clear
  conn : Connection := {}
  hostname : String := ""      -- `server_addr_`
  service : String := ""
deriving DecidableEq

namespace Client

inductive Thread where
  | user
  | network
deriving DecidableEq

inductive Event where
  | sys (call : SysCall)
  | message (msg : Buffer)           -- entry of `send_message`
  | performs (succeeds : Bool)       -- entry of `resolve` or `connection::connect`
  | connect                          -- entry of `on_connect_`
  | iteration                        -- the network loop starts an iteration
  | dataReceive (data : Buffer)      -- entry of `on_data_receive_`
  | disconnect (reporter : Thread)   -- entry of `on_disconnect_`; user: from `send_message`
  | exit                             -- `std::exit`
deriving DecidableEq

structure World where
  client : Client
  kernel : Kernel        -- with the `errno` of the network thread
  userErrno : Int
  answers : List Answer
  log : List Event

abbrev Run := Prog Halt World

/-- What the system calls of a thread see; each thread has an `errno` of its own. -/
def sysPart (t : Thread) (w : World) : SysState where
  kernel := match t with
    | .network => w.kernel
    | .user => { w.kernel with errno := w.userErrno }
  answers := w.answers
  calls := []

def putSys (t : Thread) (w : World) (s : SysState) : World :=
  { w with
    kernel := match t with
      | .network => s.kernel
      | .user => { s.kernel with errno := w.kernel.errno }
    userErrno := match t with
      | .network => w.userErrno
      | .user => s.kernel.errno
    answers := s.answers
    log := w.log ++ s.calls.map .sys }

def sysOn {α : Type} (t : Thread) (m : Sys α) : Run α := Prog.zoom (sysPart t) (putSys t) m

def sys {α : Type} (m : Sys α) : Run α := sysOn .network m

def emit (e : Event) : Run Unit := Prog.modify fun w => { w with log := w.log ++ [e] }

def client : Run Client := do
  return (← Prog.get).client

def setClient (f : Client → Client) : Run Unit :=
  Prog.modify fun w => { w with client := f w.client }

def setEc (ec : ErrorCode) : Run Unit := setClient fun c => { c with ec := ec }

def setConn (conn : Connection) : Run Unit := setClient fun c => { c with conn := conn }

/-- Note what the kernel is about to make of an operation of the network thread. -/
def perform (o : Operation) : Run Unit := do
  let w ← Prog.get
  emit (.performs (o.succeeds (sysPart .network w)))

/-! The operations, in the order of client.cpp. -/

def disconnect : Run Unit := setClient fun c => { c with running := false }

/-- The first statement of `send_message`. -/
def send (caller : Thread) (msg : Buffer) : Run Unit := do
  emit (.message msg)
  let c ← client
  let ec ← sysOn caller (c.conn.send msg c.ec)
  setEc ec

/-- The second statement of `send_message`. -/
def reportFailure : Run Unit := do
  if (← client).ec.isSet then emit (.disconnect .user)

def sendMessage (caller : Thread) (msg : Buffer) : Run Unit := do
  send caller msg
  reportFailure

def isConnected (c : Client) : Bool := c.conn.isConnected

def isRunning (c : Client) : Bool := c.running

def resolveServer : Run (List Endpoint) := do
  let c ← client
  perform (.resolve c.hostname c.service)
  let (remoteEndpoints, ec) ← sys (resolve c.hostname c.service c.ec)
  setEc ec
  return remoteEndpoints

def connectTo (remoteEndpoints : List Endpoint) : Run Unit := do
  let c ← client
  perform (.connect c.conn remoteEndpoints)
  let (conn, ec) ← sys (c.conn.connect remoteEndpoints c.ec)
  setConn conn
  setEc ec

/-- `if (ec_)`, followed by `std::exit`; true when the thread goes on. -/
def exitOnError : Run Bool := do
  if (← client).ec.isSet then
    emit .exit
    return false
  else return true

def receive : Run Buffer := do
  let c ← client
  let (data, conn, ec) ← sys (c.conn.receive Connection.maxBufferSize c.ec)
  setConn conn
  setEc ec
  return data

def passOn (data : Buffer) : Run Unit := do
  if (← client).ec.isSet || data.size == 0 then emit (.disconnect .network)
  else emit (.dataReceive data)

def handleIncomingMessages : Run Unit := do
  if !(← client).conn.isConnected then emit (.disconnect .network)
  else if ← sys (← client).conn.hasDataAvailable then return
  else passOn (← receive)

def closeConnection : Run Unit := do
  setConn (← sys (← client).conn.disconnect)

def networkLoop : Nat → Run Unit
  | 0 => do
    if (← client).running then Prog.stop .outOfFuel
  | fuel+1 => do
    if (← client).running then
      emit .iteration
      handleIncomingMessages
      networkLoop fuel

def networkThreadFunction (fuel : Nat) : Run Unit := do
  let remoteEndpoints ← resolveServer
  if !(← exitOnError) then Prog.stop .exit
  else
    connectTo remoteEndpoints
    if !(← exitOnError) then Prog.stop .exit
    else
      emit .connect
      networkLoop fuel
      closeConnection
      emit (.disconnect .network)

/-! The machine. -/

/-- The operation the network thread is at. -/
inductive Point where
  | absent                                       -- before `connect`
  | resolving
  | resolved (remoteEndpoints : List Endpoint)   -- before `if (ec_)`
  | connecting (remoteEndpoints : List Endpoint)
  | connected                                    -- before `if (ec_)`
  | announcing                                   -- before `on_connect_`
  | head                                         -- before `running_` is read by the loop
  | checking                                     -- in `handle_incoming_messages_`
  | polling
  | receiving
  | received (data : Buffer)                     -- before `if (ec_ || data.size() == 0)`
  | closing                                      -- after the loop
  | leaving                                      -- before the last `on_disconnect_`
  | ended
  | exited
deriving DecidableEq

/-- The next operation of the network thread, and where the thread is after it. -/
def next : Point → Option (Run Point)
  | .absent | .ended | .exited => none
  | .resolving => some do
    return .resolved (← resolveServer)
  | .resolved remoteEndpoints => some do
    if ← exitOnError then return .connecting remoteEndpoints else return .exited
  | .connecting remoteEndpoints => some do
    connectTo remoteEndpoints
    return .connected
  | .connected => some do
    if ← exitOnError then return .announcing else return .exited
  | .announcing => some do
    emit .connect
    return .head
  | .head => some do
    if (← client).running then
      emit .iteration
      return .checking
    else return .closing
  | .checking => some do
    if !(← client).conn.isConnected then
      emit (.disconnect .network)
      return .head
    else return .polling
  | .polling => some do
    if ← sys (← client).conn.hasDataAvailable then return .head else return .receiving
  | .receiving => some do
    return .received (← receive)
  | .received data => some do
    passOn data
    return .head
  | .closing => some do
    closeConnection
    return .leaving
  | .leaving => some do
    emit (.disconnect .network)
    return .ended

structure State where
  world : World
  point : Point
  unchecked : Nat        -- calls of `send_message` between their two statements
  destroyed : Bool       -- `~client` has begun
  asked : Bool           -- history: `disconnect` has begun
  halted : Bool          -- an operation waits for the kernel, or the process has ended

inductive Act where
  | connect (hostname service : String)
  | disconnect
  | send (caller : Thread) (msg : Buffer)   -- with all rounds of `connection::send`
  | check                                   -- the rest of a call of `send_message`
  | destroy                                 -- `~client` begins and waits for the thread
  | net                                     -- the next operation of the network thread
deriving DecidableEq

/-- Default construction: `running_` is indeterminate. -/
def initial (running : Bool) (kernel : Kernel) (answers : List Answer) : State where
  world := ⟨{ running := running },kernel,kernel.errno,answers,[]⟩
  point := .absent
  unchecked := 0
  destroyed := false
  asked := false
  halted := false

/-- The state after an operation; one that the kernel does not answer ends the run. -/
def State.after (s : State) {α : Type} (f : State → α → State) : Except Halt α × World → State
  | (.ok x, w) => f { s with world := w } x
  | (.error _, w) => { s with world := w, halted := true }

/-- The destructor has returned. -/
def State.gone (s : State) : Prop := s.destroyed = true ∧ (s.point = .absent ∨ s.point = .ended)

instance (s : State) : Decidable s.gone :=
  inferInstanceAs (Decidable (s.destroyed = true ∧ (s.point = .absent ∨ s.point = .ended)))

/-- An act of a run that has not ended. A second `connect` assigns to a joinable thread,
which ends the process. -/
def act (s : State) : Act → Option State
  | .connect hostname service => some <|
    if s.point = .absent then
      { s with
        world.client.hostname := hostname
        world.client.service := service
        world.kernel.errno := 0      -- of the new thread
        point := .resolving }
    else { s with halted := true }
  | .disconnect => some <|
    ({ s with asked := true } : State).after (fun s _ => s) (disconnect.run s.world)
  | .send caller msg => some <|
    s.after (fun s _ => { s with unchecked := s.unchecked+1 }) ((send caller msg).run s.world)
  | .check =>
    if s.unchecked = 0 then none
    else some (s.after (fun s _ => { s with unchecked := s.unchecked-1 })
      (reportFailure.run s.world))
  | .destroy => if s.destroyed then none else some { s with destroyed := true }
  | .net => (next s.point).map fun m =>
    s.after (fun s p => { s with point := p, halted := p = .exited }) (m.run s.world)

def step (s : State) (a : Act) : Option State :=
  if s.halted = true ∨ s.gone then none else act s a

end Client
end Yonaa
