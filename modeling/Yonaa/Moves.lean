import Yonaa.Runs

/-! The steps of a run spelled out: every piece of the network thread is a sequence of
the moves below, as long as the registry is sound. Soundness is what no assumption on the
kernel is needed for: no two entries share an open socket, and the sweep meets an
empty pointer before it can end if it has left one. -/
namespace Yonaa
open Relation

/-- What a handler does is a sequence of these steps. -/
inductive ApiStep (w : World) : World → Prop where
  | quiet {w' : World} (h : Quiet false w w') : ApiStep w w'
  | marked {i : Nat} {c : ClientInfo} (h : w.server.clients[i]? = some (some c)) :
      ApiStep w (w.mark i c)
  | stopped : ApiStep w w.halted

open Server in
theorem Action.steps {w : World} {r : Except Halt Unit × World} (h : Action w r) :
    ReflTransGen ApiStep w r.2 := by
  cases h with
  | inputs hs ss => exact .single (.quiet (.inputs hs ss))
  | stop => exact .single .stopped
  | remove id =>
    have hc := removeClient_cases id w
    generalize (removeClient id).run w = r at hc ⊢
    cases hc with
    | missing h => exact .refl
    | crash h => exact .refl
    | marked h => exact .single (.marked (find_found h).1)
  | message msg id =>
    have hc := messageClient_cases msg id w
    generalize (messageClient msg id).run w = r at hc ⊢
    have hmsg : Quiet false w (w.note (.message id msg)) := .note trivial
    have hsend : ∀ c : ClientInfo,
        Quiet false w (Net.putSys (w.note (.message id msg)) ((c.conn.send msg w.server.ec).run
          (Net.sysPart (w.note (.message id msg)))).2) := by
      intro c
      obtain ⟨hf,⟨calls,hcalls,hsends⟩,-⟩ := Connection.send_frame c.conn msg w.server.ec 0
        (Net.sysPart (w.note (.message id msg)))
      refine hmsg.trans (.putSys hf hcalls ?_)
      intro x hx
      have hx' := hsends x hx
      cases x <;> simp_all [Event.isInner,SysCall.isSend]
    cases hc with
    | passed h => exact .single (.quiet (hmsg.trans (.note trivial)))
    | crash h => exact .single (.quiet hmsg)
    | @sent i c ec s hf hc hs hec =>
      have hq := hsend c
      rw [hs] at hq
      exact .single (.quiet ((hq.trans (.withEc _ ec)).trans (.note trivial)))
    | @failed i c ec s hf hc hs hec =>
      have hq := hsend c
      rw [hs] at hq
      have hm : ApiStep ((Net.putSys (w.note (.message id msg)) s).withEc ec) _ :=
        .marked (i := i) (c := c) (find_found hf).1
      exact ((ReflTransGen.single (.quiet (hq.trans (.withEc _ ec)))).tail hm).tail
        (.quiet (.note trivial))
    | @cut i c e s hf hc hs =>
      have hq := hsend c
      rw [hs] at hq
      exact .single (.quiet hq)

open Server in
/-- One move of a run. -/
inductive Move : Point × World → Point × World → Prop where
  | opened {w w' : World} {a : Acceptor}
      (hserver : w'.server = { w.server with running := true, acceptor := a, ec := .clear })
      (hnext : w'.nextAvailableId = w.nextAvailableId) (hlog : w'.log = w.log) :
      Move (.start,w) (.top,w')
  | api {p : Point} {w w' : World} (hp : p.live) (h : ApiStep w w') : Move (p,w) (p,w')
  | enter {w : World} (h : w.server.running = true) :
      Move (.top,w) (.accepting,w.note .iteration)
  | leave {w : World} (h : w.server.running = false) : Move (.top,w) (.left,w)
  | refused {w w' : World} (hrun : w.server.running = true) (h : Quiet true w w') :
      Move (.accepting,w) (.accepting,w')
  | registered {w w1 : World} {fd : Int} {conn : Connection} {p : Process}
      (hrun : w.server.running = true) (hnew : 0 ≤ fd ∧ fd ∉ w.kernel.fds)
      (hconn : conn.socket = fd) (hp : p.server = w.server)
      (hfds : w1.kernel.fds = fd::w.kernel.fds)
      (hserver : w1.server = { w.server with
        clients := w.server.clients++[some ⟨w.nextAvailableId,conn,fd,true⟩]
        pollGroup := w.server.pollGroup.addSocket fd })
      (hnext : w1.nextAvailableId = w.nextAvailableId+1)
      (hlog : w1.log = w.log++[⟨.sys (.accept w.server.acceptor.socket fd),p⟩]) :
      Move (.accepting,w) (.accepting,w1.note (.callback (.connect w.nextAvailableId)))
  | polled {w w' : World} {es : PollResult} (h : Polled w w') :
      Move (.accepting,w) (.events es,w')
  | ignored {w : World} {e : SocketStatusInfo} {es : PollResult} :
      Move (.events (e::es),w) (.events es,w)
  | rejected {w : World} {s : SysState} {e : SocketStatusInfo} {es : PollResult} {i j : Nat}
      {c d : ClientInfo} {ec : ErrorCode} (hrun : w.server.running = true)
      (hf : find (fun c => c.fd == e.socketFd) w.server.clients = .found i c)
      (hfds : s.kernel.fds = w.kernel.fds)
      (hcalls : s.calls = [] ∨ ∃ flags n bytes, (0 < n → w.server.ec.isSet = true) ∧
        s.calls = [.recv c.conn.socket Connection.maxBufferSize flags n bytes])
      (hd : find (fun d => d.id == c.id) w.server.clients = .found j d) :
      Move (.events (e::es),w) (.events es,((Net.putSys w s).withEc ec).mark j d)
  | closed {w : World} {s : SysState} {e : SocketStatusInfo} {es : PollResult} {i j flags : Nat}
      {c d : ClientInfo} {ec : ErrorCode} (hrun : w.server.running = true)
      (hf : find (fun c => c.fd == e.socketFd) w.server.clients = .found i c)
      (hopen : c.conn.socket ≠ 0)
      (hfds : s.kernel.fds = w.kernel.fds.filter (· ≠ c.conn.socket))
      (hcalls : s.calls = [.recv c.conn.socket Connection.maxBufferSize flags 0 [],
        .close c.conn.socket])
      (hd : find (fun d => d.id == c.id)
        (w.server.clients.set i (some { c with conn := {} })) = .found j d) :
      Move (.events (e::es),w) (.events es,
        (((Net.putSys w s).withClient i { c with conn := {} }).withEc ec).mark j d)
  | delivered {w : World} {s : SysState} {e : SocketStatusInfo} {es : PollResult}
      {i flags : Nat} {c : ClientInfo} {bytes : List Byte} (hrun : w.server.running = true)
      (hf : find (fun c => c.fd == e.socketFd) w.server.clients = .found i c)
      (hopen : c.conn.socket ≠ 0) (hne : bytes ≠ [])
      (hsize : bytes.length ≤ Connection.maxBufferSize) (hec : w.server.ec.isSet = false)
      (hfds : s.kernel.fds = w.kernel.fds)
      (hcalls : s.calls = [.recv c.conn.socket Connection.maxBufferSize flags
        bytes.length bytes]) :
      Move (.events (e::es),w) (.events es,
        (Net.putSys w s).note (.callback (.dataReceive c.id (.ofList bytes))))
  | sweep {w : World} {es : PollResult} : Move (.events es,w) (.sweeping,w.note .sweep)
  | skip {w : World} (h : w.server.hasDisconnectedClients = false) : Move (.sweeping,w) (.top,w)
  | parted {w : World} {kept gone : List (Option ClientInfo)}
      (h : w.server.clients = kept++gone)
      (hkept : ∀ c, some c ∈ kept → c.isConnected = true)
      (hgone : ∀ c, some c ∈ gone → c.isConnected = false) :
      Move (.sweeping,w) (.removing kept.length gone.length kept.length,w)
  | moved {w w' : World} {kept gap : List (Option ClientInfo)}
      (hflag : w.server.hasDisconnectedClients = true) (hnone : none ∈ gap)
      (hsub : (entries (kept++gap)).Subperm (entries w.server.clients))
      (hgap : ∀ c, some c ∈ gap → c.isConnected = false)
      (hserver : w'.server = { w.server with clients := kept++gap })
      (hnext : w'.nextAvailableId = w.nextAvailableId)
      (hlog : ∃ new, w'.log = w.log++new ∧ Closes new) :
      Move (.sweeping,w) (.removing kept.length gap.length kept.length,w')
  | disconnected {w w1 : World} {first n i : Nat} {c : ClientInfo} {conn : Connection}
      (h : w.server.clients[i]? = some (some c)) (hconn : conn.socket = 0)
      (hserver : w1.server = { w.server with
        clients := w.server.clients.set i (some { c with conn := conn })
        pollGroup := w.server.pollGroup.removeSocket c.fd })
      (hnext : w1.nextAvailableId = w.nextAvailableId)
      (hfds : w1.kernel.fds = w.kernel.fds.filter fun fd => c.conn.socket = 0 ∨
        fd ≠ c.conn.socket)
      (hlog : (c.conn.socket = 0 ∧ w1.log = w.log) ∨ (c.conn.socket ≠ 0 ∧ ∃ p : Process,
        p.server.clients = w.server.clients ∧
        w1.log = w.log++[⟨.sys (.close c.conn.socket),p⟩])) :
      Move (.removing first (n+1) i,w)
        (.removing first n (i+1),w1.note (.callback (.disconnect c.id)))
  | erased {w : World} {first i : Nat} :
      Move (.removing first 0 i,w)
        (.top,w.withServer fun s => { s with clients := s.clients.take first })
  | shut {w w' : World} {a : Acceptor} {new : List Observation} (ha : a.isOpen = false)
      (hserver : w'.server = { w.server with acceptor := a })
      (hnext : w'.nextAvailableId = w.nextAvailableId) (hlog : w'.log = w.log++new)
      (hnew : Closes new)
      (hfds : w'.kernel.fds = w.kernel.fds.filter fun fd => w.server.acceptor.socket = 0 ∨
        fd ≠ w.server.acceptor.socket) : Move (.left,w) (.done,w')
  | die {p : Point} {w w' : World} {new : List Observation} (hp : p ≠ .dead) (hlog : w'.log = w.log++new)
      (hnew : ∀ o ∈ new, o.event.isInner w.server.running) : Move (p,w) (.dead,w')

theorem Move.log {x y : Point × World} (h : Move x y) : x.2.log <+: y.2.log := by
  cases h with
  | opened hs hn hl => exact ⟨[],by simp [hl]⟩
  | api hp h =>
    cases h with
    | quiet h =>
      obtain ⟨new,hl,-⟩ := h.log
      exact ⟨new,hl.symm⟩
    | marked h => exact ⟨_,rfl⟩
    | stopped => exact ⟨_,rfl⟩
  | enter h => exact ⟨_,rfl⟩
  | leave h => exact List.prefix_refl _
  | refused hrun h =>
    obtain ⟨new,hl,-⟩ := h.log
    exact ⟨new,hl.symm⟩
  | registered hrun hnew hconn hp hfds hs hn hl =>
    exact ⟨_,by rw [World.note_log,hl,List.append_assoc]⟩
  | polled h =>
    obtain ⟨pfds,n,hl⟩ := h.log
    exact ⟨_,hl.symm⟩
  | ignored => exact List.prefix_refl _
  | rejected hrun hf hfds hcalls hd => exact ⟨_,(List.append_assoc _ _ _).symm⟩
  | closed hrun hf hopen hfds hcalls hd => exact ⟨_,(List.append_assoc _ _ _).symm⟩
  | delivered hrun hf hopen hne hsize hec hfds hcalls =>
    exact ⟨_,(List.append_assoc _ _ _).symm⟩
  | sweep => exact ⟨_,rfl⟩
  | skip h => exact List.prefix_refl _
  | parted h hkept hgone => exact List.prefix_refl _
  | moved hflag hnone hsub hgap hs hn hl =>
    obtain ⟨new,hl,-⟩ := hl
    exact ⟨new,hl.symm⟩
  | disconnected h hconn hs hn hfds hl =>
    obtain ⟨-,hl⟩ | ⟨-,p,-,hl⟩ := hl
    · exact ⟨_,by rw [World.note_log,hl]⟩
    · exact ⟨_,by rw [World.note_log,hl,List.append_assoc]⟩
  | erased => exact List.prefix_refl _
  | shut ha hs hn hl hnew hf => exact ⟨_,hl.symm⟩
  | die hp hl hnew => exact ⟨_,hl.symm⟩

theorem Point.live.alive {p : Point} (h : p.live) : p ≠ .dead := by
  rintro rfl
  exact h

theorem Move.alive {x y : Point × World} (h : Move x y) : x.1 ≠ .dead := by
  cases h with
  | api hp h => exact hp.alive
  | die hp hl hnew => exact hp
  | _ => exact fun h => nomatch h

/-- The pairs of a point and a state that the moves of a run pass through. -/
def Passed (x : Point × World) : Prop :=
  ∃ env : Environment, ReflTransGen Move (.start,env.initial) x

/-- An invariant of the moves holds wherever a run comes. -/
theorem Passed.induct {I : Point × World → Prop}
    (hinit : ∀ env : Environment, I (.start,env.initial))
    (hmove : ∀ x y, Passed x → Move x y → I x → I y) {x : Point × World} (hx : Passed x) :
    I x := by
  obtain ⟨env,h⟩ := hx
  induction h with
  | refl => exact hinit env
  | tail hreach hm ih => exact hmove _ _ ⟨env,hreach⟩ hm ih

theorem Passed.move {x y : Point × World} (hx : Passed x) (h : Move x y) : Passed y := by
  obtain ⟨env,hx⟩ := hx
  exact ⟨env,hx.tail h⟩

def Apart (c d : ClientInfo) : Prop := c.conn.socket ≠ 0 → c.conn.socket ≠ d.conn.socket

theorem Apart.symm (c d : ClientInfo) (h : Apart c d) : Apart d c := by
  intro hd he
  exact h (by rw [← he]; exact hd) he.symm

instance : Std.Symm Apart := ⟨Apart.symm⟩

/-- The entries of a sound registry. -/
structure Sound (w : World) : Prop where
  apart : (entries w.server.clients).Pairwise Apart
  socket : ∀ c ∈ entries w.server.clients, c.conn.socket = 0 ∨ c.conn.socket = c.fd
  flagged : ∀ c ∈ entries w.server.clients, c.isConnected = false →
    w.server.hasDisconnectedClients = true

/-- The sockets of the entries are open, and no pointer is empty. -/
structure Intact (w : World) : Prop where
  noNull : none ∉ w.server.clients
  isOpen : ∀ c ∈ entries w.server.clients, c.conn.socket ≠ 0 → c.conn.socket ∈ w.kernel.fds

/-- The state in the loop of the sweep: behind first lie entries without a connection
flag, those before i with their sockets closed, unless an empty pointer is still ahead. -/
structure Sweeping (first n i : Nat) (w : World) : Prop where
  first_le : first ≤ i
  length : w.server.clients.length = i+n
  gone : ∀ j c, first ≤ j → w.server.clients[j]? = some (some c) → c.isConnected = false
  shut : none ∈ w.server.clients.drop i ∨ (Intact w ∧
    ∀ j c, first ≤ j → j < i → w.server.clients[j]? = some (some c) → c.conn.socket = 0)

/-- What holds of the registry at each point, whatever the kernel does. -/
def Base : Point × World → Prop
  | (.start,w) => w.server.clients = [] ∧ w.server.hasDisconnectedClients = false
  | (.top,w) | (.accepting,w) | (.events _,w) | (.sweeping,w) | (.left,w) => Sound w ∧ Intact w
  | (.removing first n i,w) => Sound w ∧ Sweeping first n i w
  | (.done,w) => Sound w
  | (.dead,_) => True

theorem Base.sound {x : Point × World} (hx : Base x) (ha : x.1 ≠ .dead) : Sound x.2 := by
  obtain ⟨p,w⟩ := x
  cases p with
  | start => exact ⟨by simp [hx.1],by simp [hx.1],by simp [hx.1]⟩
  | done => exact hx
  | dead => exact absurd rfl ha
  | _ => exact hx.1

/-- When the loop of the sweep has ended every entry behind first is closed, so that
erasing them closes nothing. -/
theorem Sweeping.erases {first i : Nat} {w : World} (h : Sweeping first 0 i w) :
    (Server.eraseFrom first).run w =
      (.ok (), w.withServer fun s => { s with clients := s.clients.take first }) := by
  have hlen : w.server.clients.length = i := by simpa using h.length
  obtain hnone | ⟨hintact,hshut⟩ := h.shut
  · rw [List.drop_of_length_le (by omega)] at hnone
    exact absurd hnone List.not_mem_nil
  · have hclosed : ∀ e ∈ w.server.clients.drop first, ∃ c, e = some c ∧ c.conn.socket = 0 := by
      intro e he
      obtain ⟨j,hj⟩ := List.mem_iff_getElem?.mp he
      rw [List.getElem?_drop] at hj
      cases e with
      | none => exact absurd (List.mem_of_getElem? hj) hintact.noNull
      | some c =>
        have hlt := (List.getElem?_eq_some_iff.mp hj).1
        exact ⟨c,rfl,hshut (first+j) c (by omega) (by omega) hj⟩
    exact Server.eraseFrom_closed first w hclosed

/-! Every step is a sequence of moves. -/

theorem Move.halt {p : Point} {w w' : World} (hp : p ≠ .dead) (h : w'.log = w.log) :
    Move (p,w) (.dead,w') := by
  have hlog : w'.log = w.log++[] := by simp [h]
  exact .die hp hlog (by simp)

theorem Server.Closes.isInner {new : List Observation} (h : Server.Closes new) (b : Bool) :
    ∀ o ∈ new, o.event.isInner b := by
  intro o ho
  obtain ⟨fd,he⟩ := h o ho
  rw [he]
  trivial

theorem ApiStep.moves {p : Point} {w w' : World} (hp : p.live) (h : ReflTransGen ApiStep w w') :
    ReflTransGen Move (p,w) (p,w') := by
  induction h with
  | refl => exact .refl
  | tail _ h ih => exact ih.tail (.api hp h)

open Server in
theorem Step.moves {x y : Point × World} (hx : Base x) (h : Step x y) :
    ReflTransGen Move x y := by
  cases h with
  | @opening w =>
    obtain ⟨w',hr,hl,hn,a,hs⟩ | ⟨e,w',hr,hl,-⟩ := openAcceptor_cases w
    · rw [hr]
      exact .single (.opened hs hn hl)
    · rw [hr]
      exact .single (.halt (by simp) hl)
  | @action p w r hp ha =>
    have hm := ApiStep.moves hp ha.steps
    cases r with
    | mk r w' => cases r with
      | ok a => exact hm
      | error e => exact hm.tail (.halt hp.alive rfl)
  | enter h => exact .single (.enter h)
  | leave h => exact .single (.leave h)
  | @pending w h =>
    obtain ⟨b,w',hr,hq,-⟩ | ⟨w',hr,hq,-⟩ := hasPendingConnection_quiet w
    · rw [hr]
      exact .single (.api trivial (.quiet hq))
    · rw [hr]
      exact (ReflTransGen.single (.api trivial (.quiet hq))).tail (.halt (by simp) rfl)
  | @accept w h =>
    have hc := acceptClient_cases w
    generalize acceptClient.run w = r at hc ⊢
    cases hc with
    | refused hq hlog => exact .single (.refused h hq)
    | dropped hq hnew hp hec hlog hcloses => exact .single (.refused h hq)
    | registered hnew hconn hp hec hfds hs hn hlog =>
      exact .single (.registered h hnew hconn hp hfds hs hn hlog)
    | cut hlog =>
      obtain hlog | ⟨fd,p,hp,hlog⟩ := hlog
      · exact .single (.halt (by simp) hlog)
      · exact .single (.die (by simp) hlog (by simp [Event.isInner,h]))
  | @poll w w' es h =>
    obtain ⟨es',w1,hr,hp⟩ | ⟨w1,hr,hl⟩ := pollClients_cases w
    · rw [hr] at h
      cases h
      exact .single (.polled hp)
    · rw [hr] at h
      cases h
  | @pollCut w w' e h =>
    obtain ⟨es',w1,hr,hp⟩ | ⟨w1,hr,hl⟩ := pollClients_cases w
    · rw [hr] at h
      cases h
    · rw [hr] at h
      cases h
      exact .single (.halt (by simp) hl)
  | @event w e es h =>
    have hc := handleEvent_cases e w
    generalize (handleEvent e).run w = r at hc ⊢
    cases hc with
    | ignored => exact .single .ignored
    | crash => exact .single (.halt (by simp) rfl)
    | hungUp hf hd =>
      have hm : Move (.events (e::es),w)
          (.events es,((Net.putSys w (Net.sysPart w)).withEc w.server.ec).mark _ _) :=
        .rejected h hf rfl (Or.inl rfl) hd
      have hself : (Net.putSys w (Net.sysPart w)).withEc w.server.ec = w := by
        simp [World.withEc,World.withServer,Net.putSys,Net.sysPart]
      rw [hself] at hm
      exact .single hm
    | rejected hf hfds hcalls hd => exact .single (.rejected h hf hfds hcalls hd)
    | closed hf hopen hfds hcalls hd => exact .single (.closed h hf hopen hfds hcalls hd)
    | delivered hf hopen hne hsize hec hfds hcalls =>
      exact .single (.delivered h hf hopen hne hsize hec hfds hcalls)
    | @cut i c s hf hcalls =>
      refine .single (.die (by simp) rfl ?_)
      obtain hcalls | ⟨flags,hcalls⟩ := hcalls
      · simp [hcalls]
      · simp [hcalls,Event.isInner,h]
  | sweep => exact .single .sweep
  | skip h => exact .single (.skip h)
  | @part w w' first h hr =>
    have hc := removeDisconnected_cases w hx.2.noNull
    rw [hr] at hc
    cases hc with
    | @clean kept gone hcs hkept hgone =>
      have hlen : w.server.clients.length-kept.length = gone.length := by simp [hcs]
      rw [hlen]
      exact .single (.parted hcs hkept hgone)
    | @moved kept gap _ hnone hsub hgap hs hn hlog =>
      have hlen : w'.server.clients.length-kept.length = gap.length := by simp [hs]
      rw [hlen]
      exact .single (.moved h hnone hsub hgap hs hn hlog)
  | @partCut w w' e hr =>
    have hc := removeDisconnected_cases w hx.2.noNull
    rw [hr] at hc
    cases hc with
    | cut hlog =>
      obtain ⟨new,hlog,hnew⟩ := hlog
      exact .single (.die (by simp) hlog (hnew.isInner _))
  | @disconnect w first n i =>
    have hc := disconnectClient_cases i w
    generalize (disconnectClient i).run w = r at hc ⊢
    cases hc with
    | crash h => exact .single (.halt (by simp) rfl)
    | done h hconn hs hn hfds hlog => exact .single (.disconnected h hconn hs hn hfds hlog)
    | cut hlog => exact .single (.halt (by simp) hlog)
  | @erase w first i =>
    rw [hx.2.erases]
    exact .single .erased
  | @closing w =>
    obtain ⟨a,new,w',hr,ha,hs,hn,hl,hnew,hf⟩ | ⟨w',hr,hl⟩ := closeAcceptor_cases w
    · rw [hr]
      exact .single (.shut ha hs hn hl hnew hf)
    · rw [hr]
      exact .single (.halt (by simp) hl)

/-! What one changed entry means for the registry. -/

section Set
variable {w w' : World} {i : Nat} {c c' : ClientInfo}

theorem Sound.same (h : Sound w) (hcs : w'.server.clients = w.server.clients)
    (hd : w'.server.hasDisconnectedClients = w.server.hasDisconnectedClients) : Sound w' :=
  ⟨by rw [hcs]; exact h.apart,by rw [hcs]; exact h.socket,by rw [hcs,hd]; exact h.flagged⟩

theorem Sound.set (h : Sound w) (hi : w.server.clients[i]? = some (some c))
    (hcs : w'.server.clients = w.server.clients.set i (some c'))
    (hsock : c'.conn.socket = c.conn.socket ∨ c'.conn.socket = 0) (hfd : c'.fd = c.fd)
    (hflag : w'.server.hasDisconnectedClients = true ∨ (c'.isConnected = c.isConnected ∧
      w'.server.hasDisconnectedClients = w.server.hasDisconnectedClients)) : Sound w' := by
  have hc := mem_of_getElem? hi
  refine ⟨?_,?_,?_⟩
  · rw [hcs]
    refine pairwise_set Apart.symm hi ?_ h.apart
    intro d hcd h0
    obtain hs | hs := hsock
    · rw [hs] at h0 ⊢
      exact hcd h0
    · exact absurd hs h0
  · rw [hcs]
    intro d hd
    obtain rfl | hd := mem_entries_set hi hd
    · obtain hs | hs := hsock
      · rw [hs,hfd]
        exact h.socket c hc
      · exact Or.inl hs
    · exact h.socket d hd
  · rw [hcs]
    intro d hd hdc
    obtain hflag | ⟨hcc,hdisc⟩ := hflag
    · exact hflag
    · rw [hdisc]
      obtain rfl | hd := mem_entries_set hi hd
      · exact h.flagged c hc (hcc ▸ hdc)
      · exact h.flagged d hd hdc

theorem Sound.others {d : ClientInfo} (h : Sound w) (hi : w.server.clients[i]? = some (some c))
    (hd : d ∈ entries (w.server.clients.set i (some c'))) :
    d = c' ∨ (d ∈ entries w.server.clients ∧ Apart c d) := by
  obtain ⟨l,r,hl,hr⟩ := entries_set hi c'
  have hap := h.apart
  rw [hl,List.pairwise_append,List.pairwise_cons] at hap
  obtain ⟨-,⟨hright,-⟩,hcross⟩ := hap
  rw [hr] at hd
  rw [hl]
  obtain hd | hd := List.mem_append.mp hd
  · exact Or.inr ⟨by simp [hd],Apart.symm _ _ (hcross d hd c (by simp))⟩
  · obtain rfl | hd := List.mem_cons.mp hd
    · exact Or.inl rfl
    · exact Or.inr ⟨by simp [hd],hright d hd⟩

theorem Intact.same (h : Intact w) (hcs : w'.server.clients = w.server.clients)
    (hfds : ∀ fd ≠ 0, fd ∈ w.kernel.fds → fd ∈ w'.kernel.fds) : Intact w' :=
  ⟨by rw [hcs]; exact h.noNull,
    by rw [hcs]; exact fun c hc h0 => hfds _ h0 (h.isOpen c hc h0)⟩

theorem Intact.set (h : Intact w) (hs : Sound w) (hi : w.server.clients[i]? = some (some c))
    (hcs : w'.server.clients = w.server.clients.set i (some c'))
    (hsock : c'.conn.socket = c.conn.socket ∨ c'.conn.socket = 0)
    (hfds : ∀ fd ∈ w.kernel.fds, fd ∈ w'.kernel.fds ∨
      (fd = c.conn.socket ∧ c'.conn.socket = 0)) : Intact w' := by
  constructor
  · rw [hcs]
    intro hn
    cases List.mem_or_eq_of_mem_set hn with
    | inl hn => exact h.noNull hn
    | inr hn => cases hn
  · rw [hcs]
    intro d hd h0
    obtain rfl | ⟨hd,hcd⟩ := hs.others hi hd
    · have hsc : d.conn.socket = c.conn.socket := hsock.resolve_right h0
      rw [hsc] at h0 ⊢
      obtain hf | ⟨-,hf⟩ := hfds _ (h.isOpen c (mem_of_getElem? hi) h0)
      · exact hf
      · exact absurd (hsc.symm.trans hf) h0
    · obtain hf | ⟨hf,-⟩ := hfds _ (h.isOpen d hd h0)
      · exact hf
      · exact absurd hf (Apart.symm _ _ hcd h0)

theorem none_mem_drop_set {cs : List (Option ClientInfo)} {j : Nat}
    (hi : cs[i]? = some (some c)) (hn : none ∈ cs.drop j) :
    none ∈ (cs.set i (some c')).drop j := by
  obtain ⟨k,hk⟩ := List.mem_iff_getElem?.mp hn
  rw [List.getElem?_drop] at hk
  refine List.mem_iff_getElem?.mpr ⟨k,?_⟩
  have hne : i ≠ j+k := by
    intro he
    rw [← he,hi] at hk
    cases hk
  rw [List.getElem?_drop,List.getElem?_set_ne hne,hk]

theorem none_mem_drop_succ {cs : List (Option ClientInfo)} {e : Option ClientInfo}
    (hi : cs[i]? = some (some c)) (hn : none ∈ cs.drop i) :
    none ∈ (cs.set i e).drop (i+1) := by
  rw [List.drop_set_of_lt (Nat.lt_succ_self i)]
  obtain ⟨k,hk⟩ := List.mem_iff_getElem?.mp hn
  rw [List.getElem?_drop] at hk
  cases k with
  | zero =>
    rw [Nat.add_zero,hi] at hk
    cases hk
  | succ k =>
    refine List.mem_iff_getElem?.mpr ⟨k,?_⟩
    rw [List.getElem?_drop,← hk]
    congr 1
    omega

theorem getElem?_set_cases {cs : List (Option ClientInfo)} {j : Nat} {d : ClientInfo}
    (h : (cs.set i (some c'))[j]? = some (some d)) :
    (i = j ∧ d = c') ∨ (i ≠ j ∧ cs[j]? = some (some d)) := by
  by_cases hij : i = j
  · subst hij
    have hlt : i < cs.length := by
      have := (List.getElem?_eq_some_iff.mp h).1
      simpa using this
    rw [List.getElem?_set_self hlt] at h
    simp only [Option.some.injEq] at h
    exact Or.inl ⟨rfl,h.symm⟩
  · rw [List.getElem?_set_ne hij] at h
    exact Or.inr ⟨hij,h⟩

end Set

theorem ApiStep.sound {w w' : World} (h : ApiStep w w') (hs : Sound w) : Sound w' := by
  cases h with
  | quiet h => exact hs.same h.clients h.hasDisconnectedClients
  | marked h => exact hs.set h rfl (Or.inl rfl) rfl (Or.inl rfl)
  | stopped => exact hs.same rfl rfl

theorem ApiStep.intact {w w' : World} (h : ApiStep w w') (hs : Sound w) (hi : Intact w) :
    Intact w' := by
  cases h with
  | quiet h => exact hi.same h.clients fun fd _ => h.open_kept fd
  | marked h => exact hi.set hs h rfl (Or.inl rfl) (fun fd hfd => Or.inl hfd)
  | stopped => exact hi.same rfl fun fd _ => id

theorem ApiStep.sweeping {w w' : World} {first n i : Nat} (h : ApiStep w w') (hs : Sound w)
    (hw : Sweeping first n i w) : Sweeping first n i w' := by
  have hintact := fun hi => h.intact hs hi
  cases h with
  | quiet h =>
    refine ⟨hw.first_le,by rw [h.clients]; exact hw.length,by rw [h.clients]; exact hw.gone,?_⟩
    rw [h.clients]
    exact hw.shut.imp_right fun hr => ⟨hintact hr.1,hr.2⟩
  | stopped =>
    exact ⟨hw.first_le,hw.length,hw.gone,hw.shut.imp_right fun hr => ⟨hintact hr.1,hr.2⟩⟩
  | @marked k c h =>
    refine ⟨hw.first_le,by simp [hw.length],?_,?_⟩
    · intro j d hj hd
      obtain ⟨-,rfl⟩ | ⟨-,hd⟩ := getElem?_set_cases hd
      · rfl
      · exact hw.gone j d hj hd
    · obtain hn | ⟨hi,hshut⟩ := hw.shut
      · exact Or.inl (none_mem_drop_set h hn)
      · refine Or.inr ⟨hintact hi,?_⟩
        intro j d hj hji hd
        obtain ⟨rfl,rfl⟩ | ⟨-,hd⟩ := getElem?_set_cases hd
        · exact hshut k c hj hji h
        · exact hshut j d hj hji hd

theorem Sound.registered {w w' : World} {c : ClientInfo} (h : Sound w) (hi : Intact w)
    (hcs : w'.server.clients = w.server.clients++[some c])
    (hd : w'.server.hasDisconnectedClients = w.server.hasDisconnectedClients)
    (hsock : c.conn.socket = c.fd) (hnew : c.fd ∉ w.kernel.fds) (hc : c.isConnected = true)
    (hfds : w'.kernel.fds = c.fd::w.kernel.fds) : Sound w' ∧ Intact w' := by
  have he := entries_concat w.server.clients c
  refine ⟨⟨?_,?_,?_⟩,?_,?_⟩
  · rw [hcs,he,List.pairwise_append]
    refine ⟨h.apart,List.pairwise_singleton _ _,?_⟩
    intro a ha b hb h0
    rw [List.mem_singleton.mp hb,hsock]
    exact fun hab => hnew (hab ▸ hi.isOpen a ha h0)
  · rw [hcs,he]
    intro d hd
    obtain hd | hd := List.mem_append.mp hd
    · exact h.socket d hd
    · rw [List.mem_singleton.mp hd]
      exact Or.inr hsock
  · rw [hcs,he,hd]
    intro d hd hdc
    obtain hd | hd := List.mem_append.mp hd
    · exact h.flagged d hd hdc
    · rw [List.mem_singleton.mp hd,hc] at hdc
      cases hdc
  · rw [hcs]
    simp [hi.noNull]
  · rw [hcs,he,hfds]
    intro d hd h0
    obtain hd | hd := List.mem_append.mp hd
    · exact List.mem_cons_of_mem _ (hi.isOpen d hd h0)
    · rw [List.mem_singleton.mp hd,hsock]
      exact List.mem_cons_self

theorem Sound.subperm {w w' : World} (h : Sound w)
    (hsub : (entries w'.server.clients).Subperm (entries w.server.clients))
    (hd : w'.server.hasDisconnectedClients = w.server.hasDisconnectedClients) : Sound w' := by
  refine ⟨?_,fun c hc => h.socket c (hsub.subset hc),
    fun c hc => hd ▸ h.flagged c (hsub.subset hc)⟩
  obtain ⟨l,hperm,hl⟩ := hsub
  exact (hperm.pairwise_iff fun hab => Apart.symm _ _ hab).mp (h.apart.sublist hl)

theorem Sweeping.parted {w : World} {kept gone : List (Option ClientInfo)} (hi : Intact w)
    (h : w.server.clients = kept++gone)
    (hgone : ∀ c, some c ∈ gone → c.isConnected = false) :
    Sweeping kept.length gone.length kept.length w := by
  refine ⟨Nat.le_refl _,by simp [h],?_,Or.inr ⟨hi,fun j c hj hji => by omega⟩⟩
  intro j c hj hc
  rw [h,List.getElem?_append_right hj] at hc
  exact hgone c (List.mem_of_getElem? hc)

theorem Sweeping.moved {w : World} {kept gap : List (Option ClientInfo)}
    (h : w.server.clients = kept++gap) (hnone : none ∈ gap)
    (hgap : ∀ c, some c ∈ gap → c.isConnected = false) :
    Sweeping kept.length gap.length kept.length w := by
  refine ⟨Nat.le_refl _,by simp [h],?_,Or.inl (by simp [h,hnone])⟩
  intro j c hj hc
  rw [h,List.getElem?_append_right hj] at hc
  exact hgap c (List.mem_of_getElem? hc)

theorem Sweeping.disconnected {w w' : World} {first n i : Nat} {c : ClientInfo}
    {conn : Connection} (hs : Sound w) (hw : Sweeping first (n+1) i w)
    (hi : w.server.clients[i]? = some (some c)) (hconn : conn.socket = 0)
    (hcs : w'.server.clients = w.server.clients.set i (some { c with conn := conn }))
    (hfds : w'.kernel.fds = w.kernel.fds.filter fun fd => c.conn.socket = 0 ∨
      fd ≠ c.conn.socket) : Sweeping first n (i+1) w' := by
  have hlen := hw.length
  refine ⟨Nat.le_succ_of_le hw.first_le,by rw [hcs,List.length_set]; omega,?_,?_⟩
  · rw [hcs]
    intro j d hj hd
    obtain ⟨rfl,rfl⟩ | ⟨-,hd⟩ := getElem?_set_cases hd
    · exact hw.gone i c hj hi
    · exact hw.gone j d hj hd
  · obtain hn | ⟨hintact,hshut⟩ := hw.shut
    · exact Or.inl (by rw [hcs]; exact none_mem_drop_succ hi hn)
    · right
      refine ⟨hintact.set hs hi hcs (Or.inr hconn) ?_,?_⟩
      · intro fd hfd
        rw [hfds]
        by_cases hc : c.conn.socket = 0 ∨ fd ≠ c.conn.socket
        · exact Or.inl (List.mem_filter.mpr ⟨hfd,by simpa using hc⟩)
        · simp only [not_or,not_not] at hc
          exact Or.inr ⟨hc.2,hconn⟩
      · rw [hcs]
        intro j d hj hji hd
        obtain ⟨rfl,rfl⟩ | ⟨hne,hd⟩ := getElem?_set_cases hd
        · exact hconn
        · exact hshut j d hj (by omega) hd

theorem Sound.take {w : World} (h : Sound w) (hi : Intact w) (first : Nat) :
    Sound (w.withServer fun s => { s with clients := s.clients.take first }) ∧
    Intact (w.withServer fun s => { s with clients := s.clients.take first }) := by
  have hsub := entries_take w.server.clients first
  refine ⟨h.subperm hsub.subperm rfl,?_,?_⟩
  · exact fun hn => hi.noNull (List.mem_of_mem_take hn)
  · exact fun c hc => hi.isOpen c (hsub.subset hc)

theorem Base.move {x y : Point × World} (hm : Move x y) (hx : Base x) : Base y := by
  cases hm with
  | opened hs hn hl =>
    obtain ⟨hcs,hd⟩ := hx
    exact ⟨⟨by simp [hs,hcs],by simp [hs,hcs],by simp [hs,hcs]⟩,by simp [hs,hcs],by simp [hs,hcs]⟩
  | @api p w w' hp h =>
    cases p with
    | start => exact hp.elim
    | left => exact hp.elim
    | done => exact hp.elim
    | dead => exact hp.elim
    | sweeping => exact hp.elim
    | removing first n i => exact ⟨h.sound hx.1,h.sweeping hx.1 hx.2⟩
    | top => exact ⟨h.sound hx.1,h.intact hx.1 hx.2⟩
    | accepting => exact ⟨h.sound hx.1,h.intact hx.1 hx.2⟩
    | events es => exact ⟨h.sound hx.1,h.intact hx.1 hx.2⟩
  | enter h => exact ⟨hx.1.same rfl rfl,hx.2.same rfl fun fd _ => id⟩
  | leave h => exact hx
  | refused hrun h =>
    exact ⟨hx.1.same h.clients h.hasDisconnectedClients,
      hx.2.same h.clients fun fd _ => h.open_kept fd⟩
  | registered hrun hnew hconn hp hfds hs hn hl =>
    have hr := hx.1.registered hx.2 (c := ⟨_,_,_,true⟩) (by rw [hs]) (by rw [hs]) hconn hnew.2
      rfl hfds
    exact ⟨hr.1.same rfl rfl,hr.2.same rfl fun fd _ => id⟩
  | polled h =>
    obtain ⟨g,-,hs⟩ := h.server
    exact ⟨hx.1.same (by rw [hs]) (by rw [hs]),
      hx.2.same (by rw [hs]) fun fd _ => by rw [h.fds]; exact id⟩
  | ignored => exact hx
  | @rejected w s e es i j c d ec hrun hf hfds hcalls hd =>
    have hs : Sound ((Net.putSys w s).withEc ec) := hx.1.same rfl rfl
    have hi : Intact ((Net.putSys w s).withEc ec) := hx.2.same rfl fun fd _ => by simp [hfds]
    have hm := ApiStep.marked (w := (Net.putSys w s).withEc ec) (Server.find_found hd).1
    exact ⟨hm.sound hs,hm.intact hs hi⟩
  | @closed w s e es i j flags c d ec hrun hf hopen hfds hcalls hd =>
    have hc := (Server.find_found hf).1
    have hs : Sound (((Net.putSys w s).withClient i { c with conn := {} }).withEc ec) :=
      hx.1.set hc rfl (Or.inr rfl) rfl (Or.inr ⟨rfl,rfl⟩)
    have hi : Intact (((Net.putSys w s).withClient i { c with conn := {} }).withEc ec) := by
      refine hx.2.set hx.1 hc rfl (Or.inr rfl) ?_
      intro fd hfd
      by_cases hne : fd = c.conn.socket
      · exact Or.inr ⟨hne,rfl⟩
      · exact Or.inl (by simp [hfds,hfd,hne])
    have hm := ApiStep.marked (w := ((Net.putSys w s).withClient i _).withEc ec)
      (Server.find_found hd).1
    exact ⟨hm.sound hs,hm.intact hs hi⟩
  | @delivered w s e es i flags c bytes hrun hf hopen hne hsize hec hfds hcalls =>
    exact ⟨hx.1.same rfl rfl,hx.2.same rfl fun fd _ => by simp [hfds]⟩
  | sweep => exact ⟨hx.1.same rfl rfl,hx.2.same rfl fun fd _ => id⟩
  | skip h => exact hx
  | parted h hkept hgone => exact ⟨hx.1,.parted hx.2 h hgone⟩
  | moved hflag hnone hsub hgap hs hn hl =>
    exact ⟨hx.1.subperm (by rw [hs]; exact hsub) (by rw [hs]),.moved (by rw [hs]) hnone hgap⟩
  | disconnected h hconn hs hn hfds hl =>
    have hcs := congrArg Server.clients hs
    exact ⟨hx.1.set h hcs (Or.inr hconn) rfl (Or.inr ⟨rfl,by rw [World.note_toProcess,hs]⟩),
      hx.2.disconnected hx.1 h hconn hcs hfds⟩
  | @erased w first i =>
    have hlen : w.server.clients.length = i := by simpa using hx.2.length
    obtain hnone | ⟨hi,-⟩ := hx.2.shut
    · rw [List.drop_of_length_le (by omega)] at hnone
      exact absurd hnone List.not_mem_nil
    · exact hx.1.take hi first
  | shut ha hs hn hl hnew hf => exact hx.1.same (by rw [hs]) (by rw [hs])
  | die hp hl hnew => trivial

theorem Base.initial (env : Environment) : Base (.start,env.initial) := ⟨rfl,rfl⟩

theorem Passed.base {x : Point × World} (hx : Passed x) : Base x :=
  hx.induct Base.initial fun _ _ _ hm h => h.move hm

theorem Reachable.passed {x : Point × World} (hx : Reachable x) : Passed x := by
  refine hx.induct (fun env => ⟨env,.refl⟩) ?_
  intro x y _ hs ih
  obtain ⟨env,hreach⟩ := ih
  exact ⟨env,hreach.trans (hs.moves (Passed.base ⟨env,hreach⟩))⟩

theorem Environment.passed (env : Environment) (fuel : Nat) :
    ∃ p, Passed (p,(env.run fuel).2) ∧ ((env.run fuel).1 = .ok () → p = .done) ∧
      ((env.run fuel).1 = .error .outOfFuel →
        p ≠ .dead ∧ (env.run fuel).2.server.running = true) := by
  obtain ⟨p,hp,hdone,hfuel⟩ := env.reachable fuel
  exact ⟨p,hp.passed,hdone,hfuel⟩

end Yonaa
