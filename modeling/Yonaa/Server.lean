import Yonaa.Connection

/-! server.cpp, as run by the network thread. The user's handlers run on this
thread; what each call of a handler does with the server is an input, as are the
kernel's answers and the moments at which the user's thread calls `stop`. -/
namespace Yonaa

abbrev ClientId := UInt64

structure ClientInfo where
  id : ClientId
  conn : Connection
  fd : Int
  isConnected : Bool := false
deriving DecidableEq

structure Server where
  port : Nat
  running : Bool
  hasDisconnectedClients : Bool
  ec : ErrorCode
  clients : List (Option ClientInfo)   -- the empty `unique_ptr` is `none`
  acceptor : Acceptor
  pollGroup : PollGroup
deriving DecidableEq

/-- The server, the file-level counter and the kernel. -/
structure Process where
  server : Server
  nextAvailableId : ClientId
  kernel : Kernel
deriving DecidableEq

inductive Callback where
  | connect (id : ClientId)
  | dataReceive (id : ClientId) (data : Buffer)
  | disconnect (id : ClientId)
deriving DecidableEq

/-- What a handler may call. What it does besides is left out; it leaves `errno` as it is. -/
inductive ApiCall where
  | messageClient (msg : Buffer) (id : ClientId)
  | messageAllClients (msg : Buffer) (exclude : ClientId)
  | removeClient (id : ClientId)
  | stop

/-- The points of a run that theorems speak about. -/
inductive Event where
  | sys (call : SysCall)
  | callback (call : Callback)                 -- entry of a handler
  | message (id : ClientId) (msg : Buffer)     -- entry of `message_client`
  | messaged (id : ClientId)                   -- return of `message_client`
  | marked (id : ClientId)                     -- `is_connected` was cleared
  | stopped                                    -- `running_` was cleared
  | iteration                                  -- the network loop starts an iteration
  | sweep                                      -- entry of `handle_disconnected_clients_`
deriving DecidableEq

/-- An event and the state it happened in. -/
structure Observation where
  event : Event
  state : Process
deriving DecidableEq

structure World extends Process where
  answers : List Answer
  handlers : List (List ApiCall)   -- what the successive handler calls do
  stops : List Bool                -- per read of `running_`: did the user's thread stop the server before it?
  log : List Observation

abbrev Net := Prog Halt World

namespace Net

def sysPart (w : World) : SysState := ⟨w.kernel, w.answers, []⟩

def putSys (w : World) (s : SysState) : World :=
  { w with
    kernel := s.kernel
    answers := s.answers
    log := w.log ++ s.calls.map fun c => ⟨.sys c, w.toProcess⟩ }

def sys {α : Type} (m : Sys α) : Net α := Prog.zoom sysPart putSys m

def emit (e : Event) : Net Unit :=
  Prog.modify fun w => { w with log := w.log ++ [⟨e, w.toProcess⟩] }

def setServer (f : Server → Server) : Net Unit :=
  Prog.modify fun w => { w with server := f w.server }

def setEc (ec : ErrorCode) : Net Unit := setServer fun s => { s with ec := ec }

def setClient (i : Nat) (c : ClientInfo) : Net Unit :=
  setServer fun s => { s with clients := s.clients.set i (some c) }

def setNextAvailableId (f : ClientId → ClientId) : Net Unit :=
  Prog.modify fun w => { w with nextAvailableId := f w.nextAvailableId }

def server : Net Server := do
  return (← Prog.get).server

end Net

namespace Server
open Net

def create (port : Nat) : Server where
  port := port
  running := false
  hasDisconnectedClients := false
  ec := .clear
  clients := []
  acceptor := {}
  pollGroup := PollGroup.create SocketStatus.readable

def stop : Net Unit := do
  setServer fun s => { s with running := false }
  emit .stopped

def nextStop : Net Bool where
  run w :=
    match w.stops with
    | [] => (.error .cut, w)
    | b::rest => (.ok b, { w with stops := rest })

/-- Read `running_`. The user's thread may have called `stop` since the last read. -/
def loadRunning : Net Bool := do
  if ← nextStop then stop
  return (← server).running

inductive Lookup where
  | missing
  | crash
  | found (i : Nat) (client : ClientInfo)

/-- `std::find_if` over the vector, with a predicate that dereferences. -/
def find (p : ClientInfo → Bool) : List (Option ClientInfo) → Lookup
  | [] => .missing
  | none::_ => .crash
  | some c::rest =>
    if p c then .found 0 c
    else match find p rest with
      | .missing => .missing
      | .crash => .crash
      | .found i c' => .found (i+1) c'

def lookup (p : ClientInfo → Bool) : Net (Option (Nat × ClientInfo)) := do
  match find p (← server).clients with
  | .missing => return none
  | .crash => Prog.stop .crash
  | .found i c => return some (i, c)

def clientInfoFromId (id : ClientId) : Net (Option (Nat × ClientInfo)) :=
  lookup fun c => c.id == id

def clientInfoFromNativeSocket (fd : Int) : Net (Option (Nat × ClientInfo)) :=
  lookup fun c => c.fd == fd

/-- `*clients_[i]`. -/
def deref (i : Nat) : Net ClientInfo := do
  match (← server).clients[i]? with
  | some (some c) => return c
  | _ => Prog.stop .crash

def removeClient (id : ClientId) : Net Unit := do
  match ← clientInfoFromId id with
  | none => return
  | some (i, client) =>
    setClient i { client with isConnected := false }
    setServer fun s => { s with hasDisconnectedClients := true }
    emit (.marked id)

/-- The body of `message_client`. -/
def sendToClient (msg : Buffer) (id : ClientId) : Net Unit := do
  match ← clientInfoFromId id with
  | none => return
  | some (_, client) =>
    if !client.isConnected then return
    else
      let ec ← sys (client.conn.send msg (← server).ec)
      setEc ec
      if ec.isSet then removeClient id

def messageClient (msg : Buffer) (id : ClientId) : Net Unit := do
  emit (.message id msg)
  sendToClient msg id
  emit (.messaged id)

/-- The range-for of `message_all_clients`, from position i for n entries. -/
def messageFrom (msg : Buffer) (exclude : ClientId) : Nat → Nat → Net Unit
  | 0, _ => return
  | n+1, i => do
    let client ← deref i
    if client.id ≠ exclude then messageClient msg client.id
    messageFrom msg exclude n (i+1)

def messageAllClients (msg : Buffer) (exclude : ClientId) : Net Unit := do
  messageFrom msg exclude (← server).clients.length 0

def apiCall : ApiCall → Net Unit
  | .messageClient msg id => messageClient msg id
  | .messageAllClients msg exclude => messageAllClients msg exclude
  | .removeClient id => removeClient id
  | .stop => stop

def nextHandler : Net (List ApiCall) where
  run w :=
    match w.handlers with
    | [] => (.error .cut, w)
    | calls::rest => (.ok calls, { w with handlers := rest })

def runHandler : Net Unit := do
  (← nextHandler).forM apiCall

def hasPendingConnection : Net Bool := do
  sys (← server).acceptor.hasPendingConnection

/-- `~client_info`, or nothing for an empty pointer. -/
def destroyClient : Option ClientInfo → Net Unit
  | none => return
  | some c => sys c.conn.destroy

/-- The body of the accept loop up to the call of `on_client_connect_`;
false when it continues with the next round instead. -/
def acceptClient : Net Bool := do
  let newClientId := (← Prog.get).nextAvailableId
  setNextAvailableId (· + 1)
  let (conn, ec) ← sys ((← server).acceptor.accept (← server).ec)
  setEc ec
  if ec.isSet then
    setNextAvailableId (· - 1)
    destroyClient (some { id := newClientId, conn := conn, fd := conn.nativeSocket })
    return false
  else
    setServer fun s =>
      { s with
        clients := s.clients ++ [some
          { id := newClientId, conn := conn, fd := conn.nativeSocket, isConnected := true }]
        pollGroup := s.pollGroup.addSocket conn.nativeSocket }
    emit (.callback (.connect newClientId))
    return true

def handleIncomingConnections : Nat → Net Unit
  | 0 => do
    if ← loadRunning then Prog.stop .outOfFuel
  | fuel+1 => do
    if ← loadRunning then
      if ← hasPendingConnection then
        if ← acceptClient then runHandler
        handleIncomingConnections fuel

def pollClients : Net PollResult := do
  let (group, events) ← sys (← server).pollGroup.poll
  setServer fun s => { s with pollGroup := group }
  return events

/-- The body of the event loop up to the call of `on_data_receive_`;
true when that call is made. -/
def handleEvent (e : SocketStatusInfo) : Net Bool := do
  match ← clientInfoFromNativeSocket e.socketFd with
  | none => return false
  | some (i, client) =>
    if e.status &&& (SocketStatus.error ||| SocketStatus.hungUp) ≠ 0 then
      removeClient client.id
      return false
    else if e.status &&& SocketStatus.readable ≠ 0 then
      let (data, conn, ec) ← sys (client.conn.receive Connection.maxBufferSize (← server).ec)
      setClient i { client with conn := conn }
      setEc ec
      if ec.isSet || data.size == 0 then
        removeClient client.id
        return false
      else
        emit (.callback (.dataReceive client.id data))
        return true
    else return false

def handleEvents : PollResult → Net Unit
  | [] => return
  | e::events => do
    if ← loadRunning then
      if ← handleEvent e then runHandler
      handleEvents events

def handleIncomingMessages : Net Unit := do
  handleEvents (← pollClients)

/-- The loop of `std::remove_if`. `kept` is what was written, `gap` what lies
between the write and the read position. Moving an element forward destroys the
element it replaces and leaves an empty pointer behind. -/
def removeIfLoop (kept gap : List (Option ClientInfo)) :
    List (Option ClientInfo) → Net (List (Option ClientInfo) × List (Option ClientInfo))
  | [] => return (kept, gap)
  | none::_ => Prog.stop .crash
  | some c::rest => do
    if !c.isConnected then removeIfLoop kept (gap ++ [some c]) rest
    else match gap with
      | [] => removeIfLoop (kept ++ [some c]) [] rest
      | target::gap' =>
        destroyClient target
        removeIfLoop (kept ++ [some c]) (gap' ++ [none]) rest

/-- `std::remove_if` on the clients; returns the position of the first removed one. -/
def removeDisconnected : Net Nat := do
  let (kept, gap) ← removeIfLoop [] [] (← server).clients
  setServer fun s => { s with clients := kept ++ gap }
  return kept.length

/-- The body of the sweep up to the call of `on_client_disconnect_`. -/
def disconnectClient (i : Nat) : Net Unit := do
  let client ← deref i
  setServer fun s => { s with pollGroup := s.pollGroup.removeSocket client.fd }
  let conn ← sys client.conn.disconnect
  setClient i { client with conn := conn }
  emit (.callback (.disconnect client.id))

/-- The loop of the sweep, from position i for n entries. -/
def disconnectFrom : Nat → Nat → Net Unit
  | 0, _ => return
  | n+1, i => do
    disconnectClient i
    runHandler
    disconnectFrom n (i+1)

def eraseFrom (first : Nat) : Net Unit := do
  ((← server).clients.drop first).forM destroyClient
  setServer fun s => { s with clients := s.clients.take first }

def handleDisconnectedClients : Net Unit := do
  emit .sweep
  if (← server).hasDisconnectedClients then
    let first ← removeDisconnected
    disconnectFrom ((← server).clients.length-first) first
    eraseFrom first

def networkLoop : Nat → Net Unit
  | 0 => do
    if ← loadRunning then Prog.stop .outOfFuel
  | fuel+1 => do
    if ← loadRunning then
      emit .iteration
      handleIncomingConnections fuel
      handleIncomingMessages
      handleDisconnectedClients
      networkLoop fuel

def openAcceptor : Net Unit := do
  setServer fun s => { s with running := true }
  let port := (← server).port
  let (endpoints, ec) ← sys (resolve anyAddress (toString port) (← server).ec)
  setEc ec
  if ec.isSet then Prog.stop .exit
  else
    let (acceptor, ec) ← sys ((← server).acceptor.openOn endpoints ec true)
    setServer fun s => { s with acceptor := acceptor, ec := ec }
    if ec.isSet then Prog.stop .exit

def closeAcceptor : Net Unit := do
  let acceptor ← sys (← server).acceptor.close
  setServer fun s => { s with acceptor := acceptor }

def networkThreadFunction (fuel : Nat) : Net Unit := do
  openAcceptor
  networkLoop fuel
  closeAcceptor

end Server

/-- Everything a run depends on besides the code. -/
structure Environment where
  port : Nat
  kernel : Kernel
  answers : List Answer
  handlers : List (List ApiCall)
  stops : List Bool

namespace Environment

def initial (env : Environment) : World where
  server := Server.create env.port
  nextAvailableId := 1
  kernel := env.kernel
  answers := env.answers
  handlers := env.handlers
  stops := env.stops
  log := []

/-- The run of the network thread, observed for `fuel` iterations. -/
def run (env : Environment) (fuel : Nat) : Except Halt Unit × World :=
  (Server.networkThreadFunction fuel).run env.initial

def log (env : Environment) (fuel : Nat) : List Observation := (env.run fuel).2.log

end Environment
end Yonaa
