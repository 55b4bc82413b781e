import Yonaa.Codes
import Yonaa.Sharing

/-! What the acts of a client do to its connection, and what holds of the connection in every
run: what it brings in, and how it is used and closed. -/
namespace Yonaa
open Machine

theorem Connection.send_code {c : Connection} {data : Buffer} {flags : Nat} {ec ec' : ErrorCode}
    {s s' : SysState} (h : (c.send data ec flags).run s = (.ok ec', s')) :
    ec' = ec ∨ ec'.isSet = true := by
  by_cases hg : c.isConnected = true ∧ data.size ≠ 0
  · obtain ⟨sendFlags,hsent⟩ := send_open ec flags hg.1 hg.2 s
    rw [h] at hsent
    cases hsent with
    | sent hchunks hfds hcalls hans => exact .inl rfl
    | failed e hchunks hm hfds hcalls hans => exact .inr (ErrorCode.isSet_errno e)
  · rw [send_guard ec flags (guard_of_not hg) s] at h
    cases h
    exact .inr rfl

namespace Client

def Point.isUnconnected : Point → Prop
  | .absent | .resolving | .resolved _ | .connecting _ => True
  | _ => False

def Point.isReading : Point → Prop
  | .polling | .receiving => True
  | _ => False

def Point.isOver : Point → Prop
  | .leaving | .ended => True
  | _ => False

/-- What was received and is still to be passed on. -/
def Point.buffer : Point → List (List Byte)
  | .received data => if data.size = 0 then [] else [data.data]
  | _ => []

/-- A call on the descriptor that neither closes it nor brings data. -/
def SysCall.isOn (fd : Int) : SysCall → Prop
  | .poll pfds _ => pfds.map (·.fd) = [fd]
  | .send dst _ _ _ => dst = fd
  | .recv src _ _ n _ => src = fd ∧ n ≤ 0
  | _ => False

/-- The event leaves the connection with the descriptor alone. -/
def Event.isStill (fd : Int) : Event → Prop
  | .sys call => SysCall.isOn fd call
  | .dataReceive _ => False
  | _ => True

/-- The thread can go from one point to the other while the connection stays as it is. -/
structure Walks (c : Connection) (p q : Point) : Prop where
  unconnected : q.isUnconnected → p.isUnconnected
  reading : q.isReading → p.isReading ∨ c.isConnected = true
  finished : q.isOver → p.isOver ∨ c.isConnected = false
  buffer : q.buffer = p.buffer

theorem Walks.refl (c : Connection) (p : Point) : Walks c p p := ⟨id,.inl,.inl,rfl⟩

theorem Walks.plain {c : Connection} {p q : Point} (hu : ¬q.isUnconnected) (hr : ¬q.isReading)
    (ho : ¬q.isOver) (hbuf : q.buffer = p.buffer) : Walks c p q :=
  ⟨fun h => absurd h hu,fun h => absurd h hr,fun h => absurd h ho,hbuf⟩

/-- What an act does to the connection, from one point and world to the next. -/
inductive Deed (p : Point) (w : World) (q : Point) (w' : World) : List Event → Prop where
  | early {b : Bool} (hp : p.isUnconnected)
      (hq : (q.isUnconnected ∧ w'.client.conn = w.client.conn) ∨ q = .connected) :
      Deed p w q w' [.performs b]
  | still {new : List Event} (hq : Walks w.client.conn p q) (hconn : w'.client.conn = w.client.conn)
      (hec : w.client.ec.isSet = true → w'.client.ec.isSet = true)
      (hfds : w'.kernel.fds = w.kernel.fds)
      (hnew : ∀ e ∈ new, e.isStill w.client.conn.socket)
      (hopen : (∃ call, .sys call ∈ new) → w.client.conn.isConnected = true ∨ p = .polling) :
      Deed p w q w' new
  | received {size flags : Nat} {bytes : List Byte} (hp : p = .receiving)
      (hq : q = .received (.ofList bytes)) (hopen : w.client.conn.isConnected = true)
      (hne : bytes ≠ []) (hsize : bytes.length ≤ size) (hmax : size = Connection.maxBufferSize)
      (hconn : w'.client.conn = w.client.conn) (hec : w'.client.ec = w.client.ec)
      (hfds : w'.kernel.fds = w.kernel.fds) :
      Deed p w q w' [.sys (.recv w.client.conn.socket size flags bytes.length bytes)]
  | closed {pre : List Event} (hp : ¬p.isUnconnected) (hq : ¬q.isUnconnected ∧ ¬q.isReading)
      (hbuf : q.buffer = [] ∧ p.buffer = []) (hopen : w.client.conn.isConnected = true)
      (hconn : w'.client.conn = {})
      (hfds : w'.kernel.fds = w.kernel.fds.filter (· ≠ w.client.conn.socket))
      (hpre : ∀ e ∈ pre, e.isStill w.client.conn.socket) :
      Deed p w q w' (pre++[.sys (.close w.client.conn.socket)])
  | unread (hp : p = .receiving) (hq : q = .received {})
      (hopen : w.client.conn.isConnected = false) (hconn : w'.client.conn = w.client.conn)
      (hfds : w'.kernel.fds = w.kernel.fds) : Deed p w q w' []
  | passed {data : Buffer} (hp : p = .received data) (hq : q = .head) (hd : data.size ≠ 0)
      (hec : w.client.ec.isSet = false) (hclient : w'.client = w.client)
      (hfds : w'.kernel.fds = w.kernel.fds) : Deed p w q w' [.dataReceive data]
  | dropped {data : Buffer} (hp : p = .received data) (hq : q = .head)
      (hd : w.client.ec.isSet = true ∨ data.size = 0) (hclient : w'.client = w.client)
      (hfds : w'.kernel.fds = w.kernel.fds) : Deed p w q w' [.disconnect .network]

theorem Deed.idle {p q : Point} {w w' : World} {new : List Event}
    (hq : Walks w.client.conn p q) (hconn : w'.client.conn = w.client.conn)
    (hec : w'.client.ec = w.client.ec) (hfds : w'.kernel.fds = w.kernel.fds)
    (hnew : ∀ e ∈ new, e.isStill w.client.conn.socket ∧ ∀ call, e ≠ .sys call) :
    Deed p w q w' new := by
  refine .still hq hconn (fun h => hec ▸ h) hfds (fun e he => (hnew e he).1) ?_
  rintro ⟨call,hc⟩
  exact absurd rfl ((hnew _ hc).2 call)

def landed (p : Point) : Except Halt Point → Point
  | .ok q => q
  | .error _ => p

section Operations
variable {w : World}

theorem deed_polling {m : Run Point} (hm : next .polling = some m) : ∃ new,
    (m.run w).2.log = w.log++new ∧
    Deed .polling w (landed .polling (m.run w).1) (m.run w).2 new := by
  cases hm
  rw [run_client_bind]
  obtain ⟨b,pfds,n,s,hr,hfd,hfds,hcalls⟩ | ⟨s,hr,hs⟩ :=
    hasDataAvailable_cases w.client.conn (sysPart .network w)
  · have hdeed : ∀ q : Point, Walks w.client.conn .polling q →
        Deed .polling w q (putSys .network w s) [.sys (.poll pfds n)] := by
      intro q hwalk
      exact .still hwalk rfl (fun h => h) hfds (List.forall_mem_singleton.mpr hfd) fun _ => .inr rfl
    rw [Prog.bind_ok (sys_ok hr)]
    cases b with
    | true => exact ⟨_,(touch_putSys hcalls).log,hdeed .head (.plain id id id rfl)⟩
    | false => exact ⟨_,(touch_putSys hcalls).log,hdeed .receiving
        ⟨fun h => h.elim,fun _ => .inl trivial,fun h => h.elim,rfl⟩⟩
  · rw [Prog.bind_error (sys_error hr)]
    exact ⟨[],(touch_same hs.calls).log,.idle (.refl _ _) rfl rfl hs.fds (List.forall_mem_nil _)⟩

theorem deed_receiving {m : Run Point} (hm : next .receiving = some m) : ∃ new,
    (m.run w).2.log = w.log++new ∧
      Deed .receiving w (landed .receiving (m.run w).1) (m.run w).2 new := by
  cases hm
  simp only [receive,Prog.bind_bind,run_client_bind]
  cases hc : w.client.conn.isConnected with
  | false =>
    rw [Prog.bind_ok (sys_ok (w.client.conn.receive_closed _ w.client.ec 0 hc
      (sysPart .network w)))]
    exact ⟨[],(touch_same rfl).log,.unread rfl rfl hc rfl rfl⟩
  | true =>
    obtain ⟨flags,hr⟩ := w.client.conn.receive_open w.client.ec 0 hc
      (show Connection.maxBufferSize ≠ 0 by decide) (sysPart .network w)
    generalize hrun : (w.client.conn.receive Connection.maxBufferSize w.client.ec 0).run
      (sysPart .network w) = r at hr
    have hstays : ∀ {q : Point} {w' : World} {n : Int}, n ≤ 0 → Walks w.client.conn .receiving q →
        w'.client.conn = w.client.conn → (w.client.ec.isSet = true → w'.client.ec.isSet = true) →
        w'.kernel.fds = w.kernel.fds → Deed .receiving w q w'
          [.sys (.recv w.client.conn.socket Connection.maxBufferSize flags n [])] := by
      intro q w' n hn hq hconn hec hfds
      exact .still hq hconn hec hfds (List.forall_mem_singleton.mpr ⟨rfl,hn⟩) fun _ => .inl hc
    cases hr with
    | data hne hsize hmax hfds hcalls hans =>
      rw [Prog.bind_ok (sys_ok hrun)]
      have ht := touch_putSys hcalls
      exact ⟨_,ht.log,.received rfl rfl hc hne hsize rfl rfl rfl hfds⟩
    | failed e hfds hcalls hans =>
      rw [Prog.bind_ok (sys_ok hrun)]
      have ht := touch_putSys hcalls
      exact ⟨_,ht.log,hstays (by decide) (.plain id id id rfl) rfl
        (fun _ => ErrorCode.isSet_errno e) hfds⟩
    | closed e hfds hcalls hans =>
      rw [Prog.bind_ok (sys_ok hrun)]
      have ht := touch_putSys hcalls
      refine ⟨_,ht.log,?_⟩
      change Deed _ w _ _ ([.sys (.recv w.client.conn.socket Connection.maxBufferSize flags 0 [])]++
        [.sys (.close w.client.conn.socket)])
      exact .closed (fun h => h) ⟨fun h => h,fun h => h⟩ ⟨rfl,rfl⟩ hc rfl hfds
        (List.forall_mem_singleton.mpr ⟨rfl,Int.le_refl 0⟩)
    | closing hfds hcalls hans =>
      rw [Prog.bind_error (sys_error hrun)]
      have ht := touch_putSys hcalls
      exact ⟨_,ht.log,hstays (by decide) (.refl _ _) rfl (fun h => h) hfds⟩
    | cut hs =>
      rw [Prog.bind_error (sys_error hrun)]
      exact ⟨[],(touch_same hs.calls).log,.idle (.refl _ _) rfl rfl hs.fds
        (List.forall_mem_nil _)⟩

theorem deed_closing {m : Run Point} (hm : next .closing = some m) : ∃ new,
    (m.run w).2.log = w.log++new ∧
    Deed .closing w (landed .closing (m.run w).1) (m.run w).2 new := by
  cases hm
  simp only [closeConnection,Prog.bind_bind,run_client_bind]
  cases hc : w.client.conn.isConnected with
  | false =>
    rw [Prog.bind_ok (sys_ok (Connection.disconnect_closed hc (sysPart .network w)))]
    exact ⟨[],(touch_same rfl).log,.idle
      ⟨fun h => h.elim,fun h => h.elim,fun _ => .inr hc,rfl⟩ rfl rfl rfl (List.forall_mem_nil _)⟩
  | true =>
    obtain ⟨s,hr,hfds,hcalls,-⟩ | ⟨s,hr,hs⟩ := Connection.disconnect_open hc (sysPart .network w)
    · rw [Prog.bind_ok (sys_ok hr)]
      have ht := touch_putSys hcalls
      refine ⟨_,ht.log,?_⟩
      change Deed _ w _ _ ([]++[.sys (.close w.client.conn.socket)])
      exact .closed (fun h => h) ⟨fun h => h,fun h => h⟩ ⟨rfl,rfl⟩ hc rfl hfds
        (List.forall_mem_nil _)
    · rw [Prog.bind_error (sys_error hr)]
      exact ⟨[],(touch_same hs.calls).log,.idle (.refl _ _) rfl rfl hs.fds
        (List.forall_mem_nil _)⟩

theorem performed_client {α : Type} {o : Operation} {m : Sys α} (hm : Sys.Silent m) (w : World) :
    ∃ r w', (perform o >>= fun _ => sys m).run w = (r, w') ∧ w'.client = w.client ∧
      w'.log = w.log++[.performs (o.succeeds (sysPart .network w))] := by
  have hrun : (perform o >>= fun _ => sys m).run w =
      (sys m).run (w.note (.performs (o.succeeds (sysPart .network w)))) := rfl
  obtain ⟨hcalls,-⟩ := hm (sysPart .network (w.note (.performs (o.succeeds (sysPart .network w)))))
  refine ⟨_,_,hrun,rfl,?_⟩
  simp only [putSys,hcalls]
  simp [sysPart]

theorem deed_resolving {m : Run Point} (hm : next .resolving = some m) : ∃ new,
    (m.run w).2.log = w.log++new ∧
      Deed .resolving w (landed .resolving (m.run w).1) (m.run w).2 new := by
  cases hm
  simp only [resolveServer,Prog.bind_bind,run_client_bind]
  rw [← Prog.bind_bind]
  obtain ⟨r,w',hr,hclient,hlog⟩ := performed_client
    (o := .resolve w.client.hostname w.client.service)
    (resolve_silent w.client.hostname w.client.service w.client.ec) w
  have hconn : w'.client.conn = w.client.conn := congrArg conn hclient
  cases r with
  | ok x =>
    rw [Prog.bind_ok hr]
    exact ⟨_,hlog,.early trivial (.inl ⟨trivial,hconn⟩)⟩
  | error e =>
    rw [Prog.bind_error hr]
    exact ⟨_,hlog,.early trivial (.inl ⟨trivial,hconn⟩)⟩

theorem deed_connecting {es : List Endpoint} {m : Run Point} (hm : next (.connecting es) = some m) :
    ∃ new, (m.run w).2.log = w.log++new ∧
      Deed (.connecting es) w (landed (.connecting es) (m.run w).1) (m.run w).2 new := by
  cases hm
  simp only [connectTo,Prog.bind_bind,run_client_bind]
  rw [← Prog.bind_bind]
  obtain ⟨r,w',hr,hclient,hlog⟩ := performed_client (o := .connect w.client.conn es)
    (w.client.conn.connect_silent es w.client.ec) w
  cases r with
  | ok x =>
    rw [Prog.bind_ok hr]
    exact ⟨_,hlog,.early trivial (.inr rfl)⟩
  | error e =>
    rw [Prog.bind_error hr]
    exact ⟨_,hlog,.early trivial (.inl ⟨trivial,congrArg conn hclient⟩)⟩

theorem Turn.deed {p q : Point} {w' : World} {new : List Event} (h : Turn w p new w' q)
    (hp : ¬p.waits) : Deed p w q w' new := by
  have hnote : ∀ e : Event, e.isStill w.client.conn.socket → (∀ call, e ≠ .sys call) →
      ∀ x ∈ [e], x.isStill w.client.conn.socket ∧ ∀ call, x ≠ .sys call :=
    fun e he hcall => List.forall_mem_singleton.mpr ⟨he,hcall⟩
  have hnone : ∀ x ∈ ([] : List Event), x.isStill w.client.conn.socket ∧ ∀ call, x ≠ .sys call :=
    List.forall_mem_nil _
  cases h with
  | resolve _ => exact absurd trivial hp
  | connect _ => exact absurd trivial hp
  | poll _ _ => exact absurd trivial hp
  | receive _ _ => exact absurd trivial hp
  | close _ => exact absurd trivial hp
  | closed _ => exact absurd trivial hp
  | exit hpoint he =>
    obtain rfl | ⟨es,rfl⟩ := hpoint
    · exact .idle (.plain id id id rfl) rfl rfl rfl
        (hnote .exit trivial (by simp))
    · exact .idle (.plain id id id rfl) rfl rfl rfl
        (hnote .exit trivial (by simp))
  | resolved he =>
    exact .idle ⟨fun _ => trivial,fun h => h.elim,fun h => h.elim,rfl⟩ rfl rfl rfl hnone
  | connected he => exact .idle (.plain id id id rfl) rfl rfl rfl hnone
  | announce =>
    exact .idle (.plain id id id rfl) rfl rfl rfl
      (hnote .connect trivial (by simp))
  | iterate hr =>
    exact .idle (.plain id id id rfl) rfl rfl rfl
      (hnote .iteration trivial (by simp))
  | leave hr => exact .idle (.plain id id id rfl) rfl rfl rfl hnone
  | lost hc =>
    exact .idle (.plain id id id rfl) rfl rfl rfl
      (hnote (.disconnect .network) trivial (by simp))
  | check hc =>
    exact .idle ⟨fun h => h.elim,fun _ => .inr hc,fun h => h.elim,rfl⟩ rfl rfl rfl hnone
  | fail h => exact .dropped rfl rfl h rfl rfl
  | pass he hd => exact .passed rfl rfl hd he rfl rfl
  | last =>
    exact .idle ⟨fun h => h.elim,fun h => h.elim,fun _ => .inl trivial,rfl⟩ rfl rfl rfl
      (hnote (.disconnect .network) trivial (by simp))

theorem turn_deed {p : Point} {m : Run Point} (hm : next p = some m) : ∃ new,
    (m.run w).2.log = w.log++new ∧ Deed p w (landed p (m.run w).1) (m.run w).2 new := by
  have hplain : ¬p.waits → ∃ new,
      (m.run w).2.log = w.log++new ∧ Deed p w (landed p (m.run w).1) (m.run w).2 new := by
    intro hp
    have htook := took w hm
    generalize m.run w = r at htook ⊢
    cases htook with
    | done h => exact ⟨_,h.touch.log,h.deed hp⟩
    | cut hw _ _ => exact absurd hw hp
  cases p with
  | resolving => exact deed_resolving hm
  | connecting es => exact deed_connecting hm
  | polling => exact deed_polling hm
  | receiving => exact deed_receiving hm
  | closing => exact deed_closing hm
  | _ => exact hplain fun h => h

theorem deed_send (p : Point) (caller : Thread) (msg : Buffer) : ∃ r w' new,
    (send caller msg).run w = (r, w') ∧ w'.log = w.log++new ∧ Deed p w p w' new := by
  have hbind : (send caller msg).run w =
    (sysOn caller (w.client.conn.send msg w.client.ec) >>= setEc).run (w.note (.message msg)) := rfl
  have hkeep : Prog.Keeps (Sys.Noted False fun c _ => w.client.conn.isConnected = true ∧
      SysCall.isOn w.client.conn.socket c) (w.client.conn.send msg w.client.ec) :=
    Connection.keeps_send (fun _ _ _ h _ => h) w.client.ec
      (fun _ _ _ h0 _ _ => ⟨bne_iff_ne.mpr h0,rfl⟩) fun _ _ h0 _ _ => ⟨bne_iff_ne.mpr h0,rfl⟩
  obtain ⟨hfds,⟨calls,hcalls,-⟩,-⟩ := w.client.conn.send_frame msg w.client.ec 0
    (sysPart caller (w.note (.message msg)))
  have hnoted := hkeep (sysPart caller (w.note (.message msg)))
    ⟨fun h => h.elim,List.forall_mem_nil _⟩
  cases hrun : (w.client.conn.send msg w.client.ec).run
      (sysPart caller (w.note (.message msg))) with
  | mk r s =>
    rw [hrun] at hfds hcalls hnoted
    have hsame : (putSys caller (w.note (.message msg)) s).kernel.fds = w.kernel.fds := by
      cases caller with
      | user => exact hfds
      | network => exact hfds
    have hon : ∀ c ∈ s.calls, w.client.conn.isConnected = true ∧
        SysCall.isOn w.client.conn.socket c := by
      cases r with
      | ok ec => exact hnoted.2
      | error e => exact hnoted.2
    have hnew : ∀ e ∈ Event.message msg::calls.map .sys, e.isStill w.client.conn.socket := by
      refine List.forall_mem_cons.mpr ⟨trivial,List.forall_mem_map.mpr fun c hc => ?_⟩
      exact (hon c (hcalls ▸ List.mem_append_right _ hc)).2
    have hopen : (∃ call, .sys call ∈ Event.message msg::calls.map .sys) →
        w.client.conn.isConnected = true ∨ p = .polling := by
      rintro ⟨call,hc⟩
      obtain hc | hc := List.mem_cons.mp hc
      · cases hc
      · obtain ⟨c,hc,-⟩ := List.mem_map.mp hc
        exact .inl (hon c (hcalls ▸ List.mem_append_right _ hc)).1
    have hlog : (putSys caller (w.note (.message msg)) s).log =
        w.log++.message msg::calls.map .sys := by
      rw [(touch_putSys hcalls).log]
      simp
    cases r with
    | ok ec =>
      refine ⟨.ok (),((setEc ec).run (putSys caller (w.note (.message msg)) s)).2,_,?_,hlog,?_⟩
      · rw [hbind,Prog.bind_ok (sysOn_ok hrun)]
        rfl
      · refine .still (.refl _ _) rfl (fun hset => ?_) hsame hnew hopen
        -- `send` never clears a code
        obtain hec | hec := Connection.send_code hrun
        · exact (show ec.isSet = true from hec ▸ hset)
        · exact hec
    | error e =>
      refine ⟨.error e,_,_,?_,hlog,.still (.refl _ _) rfl (fun h => h) hsame hnew hopen⟩
      rw [hbind,Prog.bind_error (sysOn_error hrun)]

end Operations

theorem Deed.rest {p : Point} {w w' : World} (hconn : w'.client.conn = w.client.conn)
    (hec : w'.client.ec = w.client.ec) (hfds : w'.kernel.fds = w.kernel.fds) : Deed p w p w' [] :=
  .idle (.refl _ _) hconn hec hfds (List.forall_mem_nil _)

theorem act_deed {s t : State} {a : Act} (h : act s a = some t) : ∃ new,
    t.world.log = s.world.log++new ∧ Deed s.point s.world t.point t.world new := by
  have hnil : s.world.log = s.world.log++[] := (List.append_nil _).symm
  cases a with
  | connect hostname service =>
    by_cases hp : s.point = .absent
    · simp only [act,if_pos hp] at h
      cases h
      refine ⟨[],hnil,.idle ?_ rfl rfl rfl (List.forall_mem_nil _)⟩
      rw [hp]
      exact ⟨fun _ => trivial,fun h => h.elim,fun h => h.elim,rfl⟩
    · simp only [act,if_neg hp] at h
      cases h
      exact ⟨[],hnil,.rest rfl rfl rfl⟩
  | disconnect =>
    cases h
    exact ⟨[],hnil,.rest rfl rfl rfl⟩
  | send caller msg =>
    obtain ⟨r,w,new,hr,hlog,hdeed⟩ := deed_send s.point caller msg (w := s.world)
    simp only [act,hr] at h
    cases r with
    | ok a =>
      cases h
      exact ⟨new,hlog,hdeed⟩
    | error e =>
      cases h
      exact ⟨new,hlog,hdeed⟩
  | check =>
    by_cases hu : s.unchecked = 0
    · simp [act,hu] at h
    · simp only [act,if_neg hu,reportFailure,run_client_bind] at h
      cases he : s.world.client.ec.isSet with
      | false =>
        rw [he] at h
        cases h
        exact ⟨[],hnil,.rest rfl rfl rfl⟩
      | true =>
        rw [he] at h
        cases h
        refine ⟨_,rfl,.idle (.refl _ _) rfl rfl rfl ?_⟩
        exact List.forall_mem_singleton.mpr ⟨trivial,by simp⟩
  | destroy =>
    cases hd : s.destroyed with
    | true => simp [act,hd] at h
    | false =>
      simp only [act,hd] at h
      cases h
      exact ⟨[],hnil,.rest rfl rfl rfl⟩
  | net =>
    obtain ⟨m,hm,h⟩ := Option.map_eq_some_iff.mp h
    have hdeed := turn_deed (w := s.world) hm
    generalize m.run s.world = r at hdeed h
    obtain ⟨r,w⟩ := r
    cases r with
    | ok q =>
      cases h
      exact hdeed
    | error e =>
      cases h
      exact hdeed

theorem step_deed {s t : State} {a : Act} (h : step s a = some t) : ∃ new,
    t.world.log = s.world.log++new ∧ Deed s.point s.world t.point t.world new := by
  by_cases hs : s.halted = true ∨ s.gone
  · simp [step,hs] at h
  · simp only [step,if_neg hs] at h
    exact act_deed h

/-- An invariant of the deeds holds at the end of every run. -/
theorem deeds_invariant {I : Point → World → Prop}
    (hdeed : ∀ p w q w' new, Deed p w q w' new → w'.log = w.log++new → I p w → I q w')
    {running : Bool} {kernel : Kernel} {answers : List Answer} {as : List Act} {t : State}
    (h0 : I .absent (initial running kernel answers).world)
    (h : run step (initial running kernel answers) as = some t) : I t.point t.world := by
  refine run_invariant (I := fun s => I s.point s.world) ?_ h0 h
  intro s a t hs ht
  obtain ⟨new,hlog,hd⟩ := step_deed ht
  exact hdeed _ _ _ _ _ hd hlog hs

/-! What comes in. -/

def Event.given : Event → Option (List Byte)
  | .dataReceive data => some data.data
  | _ => none

def obtained (log : List Event) : List (List Byte) := log.filterMap Event.received

def given (log : List Event) : List (List Byte) := log.filterMap Event.given

@[simp] theorem obtained_append (log new : List Event) :
    obtained (log++new) = obtained log++obtained new := List.filterMap_append

@[simp] theorem given_append (log new : List Event) :
    given (log++new) = given log++given new := List.filterMap_append

theorem obtained_still {fd : Int} {new : List Event} (h : ∀ e ∈ new, e.isStill fd) :
    obtained new = [] := by
  refine List.filterMap_eq_nil_iff.mpr fun e he => ?_
  have hs := h e he
  cases e with
  | sys call =>
    cases call with
    | recv src size flags n data => exact if_neg (Int.not_lt.mpr hs.2)
    | _ => rfl
  | _ => rfl

theorem given_still {fd : Int} {new : List Event} (h : ∀ e ∈ new, e.isStill fd) :
    given new = [] := by
  refine List.filterMap_eq_nil_iff.mpr fun e he => ?_
  have hs := h e he
  cases e with
  | dataReceive data => exact hs.elim
  | _ => rfl

/-- Nothing more will be passed on: `ec_` is set, or the connection is gone. -/
structure Lost (p : Point) (w : World) : Prop where
  given : given w.log <+: obtained w.log
  point : ¬p.isUnconnected
  cause : w.client.ec.isSet = true ∨ (w.client.conn.isConnected = false ∧ p.buffer = [])

/-- Everything received was passed on or is about to be, or nothing will be any more. -/
def Intake (p : Point) (w : World) : Prop :=
  (given w.log++p.buffer = obtained w.log) ∨ Lost p w

theorem Intake.starts {p : Point} {w : World} (h : Intake p w) :
    given w.log <+: obtained w.log := by
  obtain hall | hlost := h
  · rw [← hall]
    exact List.prefix_append _ _
  · exact hlost.given

theorem Point.buffer_unconnected {p : Point} (h : p.isUnconnected) : p.buffer = [] := by
  cases p with
  | received data => exact h.elim
  | _ => rfl

theorem Intake.silent {p q : Point} {w w' : World} {new : List Event}
    (hlog : w'.log = w.log++new) (hg : given new = []) (ho : obtained new = [])
    (hbuf : q.buffer = p.buffer) (hpoint : ¬p.isUnconnected → ¬q.isUnconnected)
    (hcause : (w.client.ec.isSet = true ∨ (w.client.conn.isConnected = false ∧ p.buffer = [])) →
      w'.client.ec.isSet = true ∨ (w'.client.conn.isConnected = false ∧ p.buffer = []))
    (h : Intake p w) : Intake q w' := by
  have hgiven : given w'.log = given w.log := by rw [hlog,given_append,hg,List.append_nil]
  have hobtained : obtained w'.log = obtained w.log := by
    rw [hlog,obtained_append,ho,List.append_nil]
  unfold Intake
  rw [hgiven,hobtained,hbuf]
  refine h.imp_right fun hlost => ⟨?_,hpoint hlost.point,?_⟩
  · rw [hgiven,hobtained]
    exact hlost.given
  · rw [hbuf]
    exact hcause hlost.cause

theorem Deed.intake {p q : Point} {w w' : World} {new : List Event} (h : Deed p w q w' new)
    (hlog : w'.log = w.log++new) (hw : Intake p w) : Intake q w' := by
  cases h with
  | @early b hp hq =>
    left
    have hbuf : q.buffer = p.buffer := by
      rw [Point.buffer_unconnected hp]
      obtain ⟨hq,-⟩ | rfl := hq
      · exact Point.buffer_unconnected hq
      · rfl
    have hall := hw.resolve_right fun h => h.point hp
    have hg : given [.performs b] = [] := rfl
    have ho : obtained [.performs b] = [] := rfl
    rw [hlog,hbuf,given_append,obtained_append,hg,ho,List.append_nil,List.append_nil]
    exact hall
  | still hq hconn hec hfds hnew hopen =>
    refine hw.silent hlog (given_still hnew) (obtained_still hnew) hq.buffer ?_ ?_
    · exact mt hq.unconnected
    · rw [hconn]
      exact Or.imp_left hec
  | @received size flags bytes hp hq hopen hne hsize hmax hconn hec hfds =>
    have hpos := List.length_pos_of_ne_nil hne
    have hsmall : bytes.length < 2^64 := by
      have : Connection.maxBufferSize < 2^64 := by decide
      omega
    have hg : given [.sys (.recv w.client.conn.socket size flags bytes.length bytes)] = [] := rfl
    have ho : obtained [.sys (.recv w.client.conn.socket size flags bytes.length bytes)] =
        [bytes] := by
      have hreceived : Event.received (.sys (.recv w.client.conn.socket size flags bytes.length
          bytes)) = some bytes := if_pos (by omega)
      rw [obtained,List.filterMap_cons,hreceived]
      rfl
    subst hp hq
    obtain hall | hlost := hw
    · left
      have hbuf : Point.buffer (.received (.ofList bytes)) = [bytes] := by
        have hdata := Buffer.data_ofList hsmall
        have hsize : (Buffer.ofList bytes).size ≠ 0 := by
          rw [Buffer.size,hdata]
          omega
        rw [Point.buffer,if_neg hsize,hdata]
      rw [hlog,hbuf,given_append,obtained_append,hg,ho,← hall]
      simp [Point.buffer]
    · right
      refine ⟨?_,fun h => h,.inl ?_⟩
      · rw [hlog,obtained_append,given_append,hg,List.append_nil]
        exact hlost.given.trans (List.prefix_append _ _)
      · rw [hec]
        exact hlost.cause.resolve_right fun h => absurd hopen (Bool.eq_false_iff.mp h.1)
  | @closed pre hp hq hbuf hopen hconn hfds hpre =>
    have hg : given (pre++[.sys (.close w.client.conn.socket)]) = [] := by
      rw [given_append,given_still hpre]
      rfl
    have ho : obtained (pre++[.sys (.close w.client.conn.socket)]) = [] := by
      rw [obtained_append,obtained_still hpre]
      rfl
    refine hw.silent hlog hg ho (hbuf.1.trans hbuf.2.symm) (fun _ => hq.1) fun _ => .inr ?_
    rw [hconn]
    exact ⟨rfl,hbuf.2⟩
  | unread hp hq hopen hconn hfds =>
    subst hp hq
    have hbuf : Point.buffer (.received {}) = Point.buffer .receiving := rfl
    exact hw.silent hlog rfl rfl hbuf (fun _ => id) fun _ => .inr ⟨hconn ▸ hopen,rfl⟩
  | @passed data hp hq hd hec hclient hfds =>
    subst hp hq
    have hbuf : Point.buffer (.received data) = [data.data] := if_neg hd
    obtain hall | hlost := hw
    · left
      have hg : given [.dataReceive data] = [data.data] := rfl
      have ho : obtained [.dataReceive data] = [] := rfl
      rw [hlog,given_append,obtained_append,hg,ho,← hall,hbuf]
      simp [Point.buffer]
    · obtain hset | ⟨-,hnil⟩ := hlost.cause
      · rw [hec] at hset
        cases hset
      · rw [hbuf] at hnil
        cases hnil
  | @dropped data hp hq hd hclient hfds =>
    subst hp hq
    have hg : given [.disconnect .network] = [] := rfl
    have ho : obtained [.disconnect .network] = [] := rfl
    obtain hset | hzero := hd
    · -- the buffer is lost, but `ec_` says so
      right
      refine ⟨?_,id,.inl (by rw [hclient]; exact hset)⟩
      rw [hlog,given_append,obtained_append,hg,ho,List.append_nil,List.append_nil]
      exact hw.starts
    · have hbuf : Point.buffer .head = Point.buffer (.received data) := (if_pos hzero).symm
      refine hw.silent hlog hg ho hbuf (fun _ => id) fun h => ?_
      rw [hclient]
      exact h

theorem Deed.sizes {p q : Point} {w w' : World} {new : List Event} (h : Deed p w q w' new) :
    ∀ bytes ∈ obtained new, bytes ≠ [] ∧ bytes.length ≤ Connection.maxBufferSize := by
  cases h with
  | still hq hconn hec hfds hnew hopen =>
    rw [obtained_still hnew]
    exact List.forall_mem_nil _
  | @received size flags bytes hp hq hopen hne hsize hmax hconn hec hfds =>
    intro b hb
    obtain ⟨e,he,hreceived⟩ := List.mem_filterMap.mp hb
    rw [List.mem_singleton.mp he] at hreceived
    have hpos := List.length_pos_of_ne_nil hne
    have hsome : Event.received (.sys (.recv w.client.conn.socket size flags bytes.length
        bytes)) = some bytes := if_pos (by omega)
    cases hsome.symm.trans hreceived
    exact ⟨hne,hmax ▸ hsize⟩
  | @closed pre hp hq hbuf hopen hconn hfds hpre =>
    rw [obtained_append,obtained_still hpre]
    exact List.forall_mem_nil _
  | _ => exact List.forall_mem_nil _

theorem intake_run {running : Bool} {kernel : Kernel} {answers : List Answer} {as : List Act}
    {t : State} (h : run step (initial running kernel answers) as = some t) :
    Intake t.point t.world :=
  deeds_invariant (fun _ _ _ _ _ hd hlog hw => hd.intake hlog hw) (.inl rfl) h

/-- `on_data_receive_` is given what ::recv returned, buffer by buffer, up to some point; while
the connection is open and `ec_` is clear all of it, but for a buffer that is about to be
passed on. -/
theorem given_in_order (running : Bool) (kernel : Kernel) (answers : List Answer) {as : List Act}
    {t : State} (h : run step (initial running kernel answers) as = some t) :
    given t.world.log <+: obtained t.world.log ∧
    (∀ bytes ∈ obtained t.world.log, bytes ≠ [] ∧ bytes.length ≤ Connection.maxBufferSize) ∧
    (t.world.client.ec.isSet = false → isConnected t.world.client = true →
      given t.world.log++t.point.buffer = obtained t.world.log) := by
  refine ⟨(intake_run h).starts,?_,fun hec hopen => ?_⟩
  · refine deeds_invariant (I := fun _ w => ∀ bytes ∈ obtained w.log, bytes ≠ [] ∧
      bytes.length ≤ Connection.maxBufferSize) ?_ (List.forall_mem_nil _) h
    intro p w q w' new hd hlog hw
    rw [hlog,obtained_append]
    exact List.forall_mem_append.mpr ⟨hw,hd.sizes⟩
  · refine (intake_run h).resolve_right fun hlost => ?_
    obtain hset | ⟨hclosed,-⟩ := hlost.cause
    · rw [hec] at hset
      cases hset
    · exact absurd hopen (Bool.eq_false_iff.mp hclosed)

theorem given_in_order_received : ∃ t,
    run step (initial true ⟨[],0,[]⟩ (connects++[.poll (.ok [POLLOUT]),.recv (.ok [7,8])]))
      (opening++List.replicate 5 .net) = some t ∧ given t.world.log = [[7,8]] ∧
    given t.world.log <+: obtained t.world.log := by
  obtain ⟨t,ht,hg⟩ : ∃ t,
      run step (initial true ⟨[],0,[]⟩ (connects++[.poll (.ok [POLLOUT]),.recv (.ok [7,8])]))
        (opening++List.replicate 5 .net) = some t ∧ given t.world.log = [[7,8]] := ⟨_,rfl,rfl⟩
  exact ⟨t,ht,hg,(given_in_order true ⟨[],0,[]⟩ _ ht).1⟩

/-! How the connection is used. -/

def Event.call : Event → Option SysCall
  | .sys call => some call
  | _ => none

def calls (log : List Event) : List SysCall := log.filterMap Event.call

@[simp] theorem calls_append (log new : List Event) : calls (log++new) = calls log++calls new :=
  List.filterMap_append

theorem mem_calls {call : SysCall} {log : List Event} (h : call ∈ calls log) : .sys call ∈ log := by
  obtain ⟨e,he,hcall⟩ := List.mem_filterMap.mp h
  cases e with
  | sys c =>
    cases hcall
    exact he
  | _ => cases hcall

def SysCall.uses (fd : Int) : SysCall → Prop
  | .poll pfds _ => pfds.map (·.fd) = [fd]
  | .send dst _ _ _ => dst = fd
  | .recv src _ _ _ _ => src = fd
  | _ => False

theorem SysCall.isOn.uses {fd : Int} {call : SysCall} (h : isOn fd call) : uses fd call := by
  cases call with
  | recv src size flags n data => exact h.1
  | accept src new => exact h.elim
  | close src => exact h.elim
  | _ => exact h

theorem uses_still {fd : Int} {new : List Event} (h : ∀ e ∈ new, e.isStill fd) :
    ∀ call ∈ calls new, SysCall.uses fd call := fun _ hcall => (h _ (mem_calls hcall)).uses

/-- There is no connection yet, or it is open, or it was there and has been closed. -/
inductive Tenure (p : Point) (w : World) : Prop where
  | before (hp : p.isUnconnected) (hconn : w.client.conn = {}) (hcalls : calls w.log = [])
  | held (hp : ¬p.isUnconnected ∧ ¬p.isOver) (hopen : w.client.conn.isConnected = true)
      (hcalls : ∀ call ∈ calls w.log, SysCall.uses w.client.conn.socket call)
  | released (hp : ¬p.isUnconnected ∧ ¬p.isReading) (hclosed : w.client.conn.isConnected = false)
      (hcalls : calls w.log = [] ∨ ∃ fd body, fd ≠ 0 ∧ fd ∉ w.kernel.fds ∧
        (∀ call ∈ body, SysCall.uses fd call) ∧ calls w.log = body++[.close fd])

theorem Tenure.silent {p q : Point} {w w' : World} {new : List Event}
    (hp : ¬p.isUnconnected ∧ ¬p.isReading) (hq : ¬q.isUnconnected ∧ ¬q.isReading)
    (hclosed : w.client.conn.isConnected = false) (hconn : w'.client.conn = w.client.conn)
    (hfds : w'.kernel.fds = w.kernel.fds) (hlog : w'.log = w.log++new) (hnew : calls new = [])
    (h : Tenure p w) : Tenure q w' := by
  cases h with
  | before hu hconn hcalls => exact absurd hu hp.1
  | held hp hopen hcalls =>
    rw [hclosed] at hopen
    cases hopen
  | released hp' hclosed hcalls =>
    refine .released hq (hconn ▸ hclosed) ?_
    rw [hlog,calls_append,hnew,List.append_nil,hfds]
    exact hcalls

theorem Tenure.head {data : Buffer} {w w' : World} {new : List Event}
    (hclient : w'.client = w.client) (hfds : w'.kernel.fds = w.kernel.fds)
    (hlog : w'.log = w.log++new) (hnew : calls new = []) (h : Tenure (.received data) w) :
    Tenure .head w' := by
  cases h with
  | before hp _ _ => exact hp.elim
  | held hp hopen hcalls =>
    refine .held ⟨id,id⟩ (hclient ▸ hopen) ?_
    rw [hlog,calls_append,hclient,hnew,List.append_nil]
    exact hcalls
  | released hp hclosed hcalls =>
    exact .silent ⟨id,id⟩ ⟨id,id⟩ hclosed (congrArg conn hclient) hfds hlog hnew
      (.released hp hclosed hcalls)

theorem Deed.tenure {p q : Point} {w w' : World} {new : List Event} (h : Deed p w q w' new)
    (hlog : w'.log = w.log++new) (hw : Tenure p w) : Tenure q w' := by
  cases h with
  | @early b hp hq =>
    cases hw with
    | before _ hconn hcalls =>
      have hnone : calls w'.log = [] := by
        rw [hlog,calls_append,hcalls]
        rfl
      obtain ⟨hu,hsame⟩ | rfl := hq
      · exact .before hu (hsame.trans hconn) hnone
      · cases hopen : w'.client.conn.isConnected with
        | true => exact .held ⟨id,id⟩ hopen (by simp [hnone])
        | false => exact .released ⟨id,id⟩ hopen (.inl hnone)
    | held hp' _ _ => exact absurd hp hp'.1
    | released hp' _ _ => exact absurd hp hp'.1
  | still hq hconn hec hfds hnew hopen =>
    have hsilent : w.client.conn.isConnected = false → p ≠ .polling → calls new = [] := by
      intro hclosed hp
      refine List.eq_nil_iff_forall_not_mem.mpr fun call hcall => ?_
      obtain h | h := hopen ⟨call,mem_calls hcall⟩
      · rw [hclosed] at h
        cases h
      · exact hp h
    cases hw with
    | before hp hempty hcalls =>
      have hclosed : w.client.conn.isConnected = false := by
        rw [hempty]
        rfl
      have hnone : calls w'.log = [] := by
        rw [hlog,calls_append,hcalls,hsilent hclosed (by rintro rfl; exact hp)]
        rfl
      by_cases hu : q.isUnconnected
      · exact .before hu (hconn.trans hempty) hnone
      · refine .released ⟨hu,fun hr => ?_⟩ (hconn ▸ hclosed) (.inl hnone)
        obtain hr | hr := hq.reading hr
        · cases p <;> first | exact hp | exact hr
        · rw [hclosed] at hr
          cases hr
    | held hp hopen' hcalls =>
      refine .held ⟨fun hu => hp.1 (hq.unconnected hu),fun ho => ?_⟩ (hconn ▸ hopen') ?_
      · obtain ho | ho := hq.finished ho
        · exact hp.2 ho
        · rw [hopen'] at ho
          cases ho
      · rw [hlog,calls_append,hconn]
        exact List.forall_mem_append.mpr ⟨hcalls,uses_still hnew⟩
    | released hp hclosed hcalls =>
      have hq' : ¬q.isUnconnected ∧ ¬q.isReading := by
        refine ⟨fun hu => hp.1 (hq.unconnected hu),fun hr => ?_⟩
        obtain hr | hr := hq.reading hr
        · exact hp.2 hr
        · rw [hclosed] at hr
          cases hr
      refine .silent hp hq' hclosed hconn hfds hlog ?_ (.released hp hclosed hcalls)
      exact hsilent hclosed (by rintro rfl; exact hp.2 trivial)
  | received hp hq hopen hne hsize hmax hconn hec hfds =>
    subst hp hq
    cases hw with
    | before hp _ _ => exact hp.elim
    | held hp _ hcalls =>
      refine .held ⟨id,id⟩ (hconn ▸ hopen) ?_
      rw [hlog,calls_append,hconn]
      exact List.forall_mem_append.mpr ⟨hcalls,List.forall_mem_singleton.mpr rfl⟩
    | released hp _ _ => exact absurd trivial hp.2
  | @closed pre hp hq hbuf hopen hconn hfds hpre =>
    cases hw with
    | before hp' _ _ => exact absurd hp' hp
    | held _ _ hcalls =>
      refine .released hq (by rw [hconn]; rfl) (.inr ⟨w.client.conn.socket,calls w.log++calls pre,
        bne_iff_ne.mp hopen,?_,List.forall_mem_append.mpr ⟨hcalls,uses_still hpre⟩,?_⟩)
      · rw [hfds]
        simp
      · rw [hlog,calls_append,calls_append,List.append_assoc]
        rfl
    | released _ hclosed _ =>
      rw [hclosed] at hopen
      cases hopen
  | unread hp hq hopen hconn hfds =>
    subst hp
    cases hw with
    | before hp _ _ => exact hp.elim
    | held _ hopen' _ =>
      rw [hopen] at hopen'
      cases hopen'
    | released hp _ _ => exact absurd trivial hp.2
  | passed hp hq hd hec hclient hfds =>
    subst hp hq
    exact hw.head hclient hfds hlog rfl
  | dropped hp hq hd hclient hfds =>
    subst hp hq
    exact hw.head hclient hfds hlog rfl

/-- In every run the client makes its calls on one descriptor, which it closes once and does
not use any more then; when the network thread comes to its last statement the connection is
closed. This needs the acts to be whole calls of the connection's functions: `send` reads the
descriptor anew for each ::send. -/
theorem one_descriptor (running : Bool) (kernel : Kernel) (answers : List Answer)
    {as : List Act} {t : State} (h : run step (initial running kernel answers) as = some t) :
    (∃ fd body, (∀ call ∈ body, SysCall.uses fd call) ∧
      ((calls t.world.log = body ∧ (t.point.isOver → body = [])) ∨
        (calls t.world.log = body++[.close fd] ∧ fd ≠ 0 ∧ fd ∉ t.world.kernel.fds ∧
          isConnected t.world.client = false))) ∧
    (t.point.isOver → isConnected t.world.client = false) := by
  have htenure : Tenure t.point t.world :=
    deeds_invariant (fun p w q w' new hd hlog hw => hd.tenure hlog hw)
      (.before trivial rfl rfl) h
  cases htenure with
  | before hp hconn hcalls =>
    refine ⟨⟨0,[],(List.forall_mem_nil _),.inl ⟨hcalls,fun _ => rfl⟩⟩,fun _ => ?_⟩
    rw [isConnected,hconn]
    rfl
  | held hp hopen hcalls =>
    exact ⟨⟨_,_,hcalls,.inl ⟨rfl,fun ho => absurd ho hp.2⟩⟩,fun ho => absurd ho hp.2⟩
  | released hp hclosed hcalls =>
    refine ⟨?_,fun _ => hclosed⟩
    obtain hcalls | ⟨fd,body,h0,hfd,hbody,hcalls⟩ := hcalls
    · exact ⟨0,[],(List.forall_mem_nil _),.inl ⟨hcalls,fun _ => rfl⟩⟩
    · exact ⟨fd,body,hbody,.inr ⟨hcalls,h0,hfd,hclosed⟩⟩

/-- The peer closes the connection; the user disconnects after that. -/
theorem one_descriptor_closed : ∃ t,
    run step (initial true ⟨[],0,[]⟩
      (connects++[.poll (.ok [POLLOUT]),.recv (.ok []),.shutdown (.ok ()),.close (.ok ())]))
      (opening++List.replicate 5 .net++[.disconnect,.net,.net]) = some t ∧
    t.point = .leaving ∧ isConnected t.world.client = false := by
  obtain ⟨t,ht,hp⟩ : ∃ t, run step (initial true ⟨[],0,[]⟩
      (connects++[.poll (.ok [POLLOUT]),.recv (.ok []),.shutdown (.ok ()),.close (.ok ())]))
      (opening++List.replicate 5 .net++[.disconnect,.net,.net]) = some t ∧ t.point = .leaving :=
    ⟨_,rfl,rfl⟩
  exact ⟨t,ht,hp,(one_descriptor true ⟨[],0,[]⟩ _ ht).2 (hp ▸ trivial)⟩

end Client
end Yonaa
