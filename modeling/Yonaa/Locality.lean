import Yonaa.Pieces
import Yonaa.Registry

/-! `ec_` is one code for all calls on all sockets, and only failing calls write it. What
the server does with a socket follows the outcome of the present call exactly when the
code was clear before it. -/
namespace Yonaa

def Observation.gained (o : Observation) : Bool :=
  match o.event with
  | .sys (.accept _ fd) => decide (0 ≤ fd)
  | .sys (.recv _ _ _ n _) => decide (0 < n)
  | _ => false

/-- A new connection, or the bytes of a client that is connected. -/
def Observation.owed (o : Observation) : Bool :=
  o.gained && match o.event with
  | .sys (.recv fd _ _ _ _) =>
    (entries o.state.server.clients).any fun c => c.conn.socket == fd && c.isConnected
  | _ => true

theorem Observation.owed_gained {o : Observation} (h : o.owed = true) : o.gained = true :=
  (Bool.and_eq_true_iff.mp h).1

/-- The handler call that announces the connection, now among the clients, or hands the
bytes to the client that has the socket, with no client changed. -/
def Observation.passedOn (o o' : Observation) : Bool :=
  match o.event, o'.event with
  | .sys (.accept _ fd), .callback (.connect id) =>
    (entries o'.state.server.clients).any fun c =>
      c.id == id && c.fd == fd && c.conn.socket == fd && c.isConnected
  | .sys (.recv fd _ _ _ bytes), .callback (.dataReceive id data) =>
    (entries o.state.server.clients).any (fun c => c.id == id && c.conn.socket == fd) &&
      data == .ofList bytes && o'.state.server.clients == o.state.server.clients
  | _, _ => false

/-- One call of `message_client`, from the state it was made in. -/
structure Call where
  id : ClientId
  msg : Buffer
  state : Process
  failed : Bool := false    -- a ::send returned -1
  marked : Bool := false    -- a client was marked for removal
deriving DecidableEq

structure Calls where
  current : Option Call := none
  done : List Call := []
deriving DecidableEq

def Calls.step (s : Calls) (o : Observation) : Calls :=
  match o.event, s.current with
  | .message id msg, _ => { s with current := some { id := id, msg := msg, state := o.state } }
  | .sys (.send _ _ _ n), some c =>
    { s with current := some { c with failed := c.failed || n == -1 } }
  | .marked _, some c => { s with current := some { c with marked := true } }
  | .messaged _, some c => { current := none, done := s.done++[c] }
  | _, _ => s

def calls (log : List Observation) : Calls := log.foldl Calls.step {}

def Call.recipient (c : Call) : Option ClientInfo :=
  match Server.find (fun d => d.id == c.id) c.state.server.clients with
  | .found _ d => if d.isConnected then some d else none
  | _ => none

/-- What a connected client or a new connection brings is passed on, and a message that was sent
without an error leaves the client connected. -/
structure ErrorLocal (log : List Observation) : Prop where
  passed : log.IsChain fun o o' => o.owed = true → o.passedOn o' = true
  kept : ∀ c ∈ (calls log).done, ∀ d, c.recipient = some d → c.msg.size ≠ 0 →
    c.failed = false → c.marked = false

/-- An observation and the next one: what was gained is passed on if `ec_` was clear. -/
def Observation.Next (o o' : Observation) : Prop :=
  o.gained = true → (o.passedOn o' = true ↔ o.state.server.ec.isSet = false)

/-- A message without an error leaves the client connected if `ec_` was clear and the
client's descriptor is not 0. -/
def Call.Kept (c : Call) : Prop :=
  ∀ d, c.recipient = some d → c.msg.size ≠ 0 → c.failed = false →
    (c.marked = false ↔ c.state.server.ec.isSet = false ∧ d.conn.socket ≠ 0)

/-- Exactly a clear `ec_` makes the server act on the outcome of the present call. -/
structure Governed (log : List Observation) : Prop where
  passed : log.IsChain Observation.Next
  kept : ∀ c ∈ (calls log).done, c.Kept

/-- `ec_` was clear whenever a connected client or a new connection brought something or a message
was sent without an error, and no such message went to a client with the descriptor 0. -/
structure Cleared (log : List Observation) : Prop where
  gained : log.IsChain fun o _ => o.owed = true → o.state.server.ec.isSet = false
  sent : ∀ c ∈ (calls log).done, ∀ d, c.recipient = some d → c.msg.size ≠ 0 →
    c.failed = false → c.state.server.ec.isSet = false ∧ d.conn.socket ≠ 0

theorem chain_congr {α : Type} {R S T : α → α → Prop} {l : List α} (h : l.IsChain T)
    (hrs : ∀ a b, T a b → (R a b ↔ S a b)) : l.IsChain R ↔ l.IsChain S := by
  induction h with
  | nil => simp
  | singleton a => simp
  | cons_cons hab h ih => rw [List.isChain_cons_cons,List.isChain_cons_cons,hrs _ _ hab,ih]

theorem Governed.errorLocal_iff {log : List Observation} (h : Governed log) :
    ErrorLocal log ↔ Cleared log := by
  have hpassed := chain_congr (R := fun o o' => o.owed = true → o.passedOn o' = true)
    (S := fun o _ => o.owed = true → o.state.server.ec.isSet = false) h.passed
    fun o o' hn => forall_congr' fun ho => hn (Observation.owed_gained ho)
  constructor
  · intro he
    exact ⟨hpassed.mp he.passed,fun c hc d hd hm hf =>
      (h.kept c hc d hd hm hf).mp (he.kept c hc d hd hm hf)⟩
  · intro he
    exact ⟨hpassed.mpr he.gained,fun c hc d hd hm hf =>
      (h.kept c hc d hd hm hf).mpr (he.sent c hc d hd hm hf)⟩

/-! Each step leaves nothing to pass on. -/

/-- What the last observation gained was not passed on because `ec_` was set. -/
def Spent (log : List Observation) : Prop :=
  ∀ o ∈ log.getLast?, o.gained = true → o.state.server.ec.isSet = true

def Fresh (new : List Observation) : Prop :=
  ∀ o ∈ new.head?, ∀ call, o.event = .callback call → ∃ id, call = .disconnect id

theorem passedOn_fresh {o o' : Observation}
    (h : ∀ call, o'.event = .callback call → ∃ id, call = .disconnect id) :
    o.passedOn o' = false := by
  obtain ⟨e',p'⟩ := o'
  cases e' with
  | callback call =>
    obtain ⟨id,rfl⟩ := h call rfl
    obtain ⟨e,p⟩ := o
    cases e with
    | sys c => cases c <;> rfl
    | _ => rfl
  | _ =>
    obtain ⟨e,p⟩ := o
    cases e with
    | sys c => cases c <;> rfl
    | _ => rfl

theorem chain_append {log new : List Observation} (h : log.IsChain Observation.Next)
    (hs : Spent log) (hn : new.IsChain Observation.Next) (hf : Fresh new) :
    (log++new).IsChain Observation.Next := by
  refine h.append hn ?_
  intro o ho o' ho' hg
  rw [passedOn_fresh (hf o' ho'),hs o ho hg]
  simp

theorem chain_of_idle {new : List Observation} (h : ∀ o ∈ new, o.gained = false) :
    new.IsChain Observation.Next := by
  induction new with
  | nil => exact .nil
  | cons o new ih =>
    refine .cons (ih fun x hx => h x (List.mem_cons_of_mem _ hx)) ?_
    intro o' _ hg
    rw [h o List.mem_cons_self] at hg
    cases hg

theorem spent_append {log new : List Observation} (hs : Spent log) (hn : Spent new) :
    Spent (log++new) := by
  intro o ho
  rw [List.getLast?_append] at ho
  cases hl : new.getLast? with
  | none =>
    rw [hl] at ho
    exact hs o ho
  | some x =>
    rw [hl] at ho
    exact hn o (hl ▸ ho)

theorem Event.isPlain.gained {o : Observation} (h : o.event.isPlain) : o.gained = false := by
  obtain ⟨e,p⟩ := o
  cases e with
  | sys c => cases c with
    | close fd => rfl
    | poll pfds n => rfl
    | _ => exact h.elim
  | _ => rfl

theorem spent_of_idle {new : List Observation} (h : ∀ o ∈ new, o.gained = false) :
    Spent new := by
  intro o ho hg
  rw [h o (List.mem_of_getLast? ho)] at hg
  cases hg

/-! The calls of `message_client`. -/

theorem calls_append (log new : List Observation) :
    calls (log++new) = new.foldl Calls.step (calls log) := by simp [calls]

theorem calls_outside {log new : List Observation} (h : (calls log).current = none)
    (hnew : ∀ o ∈ new, ∀ id msg, o.event ≠ .message id msg) : calls (log++new) = calls log := by
  rw [calls_append]
  induction new with
  | nil => rfl
  | cons o new ih =>
    have hstep : (calls log).step o = calls log := by
      have ho := hnew o List.mem_cons_self
      unfold Calls.step
      rw [h]
      split <;> simp_all
    rw [List.foldl_cons,hstep]
    exact ih fun x hx => hnew x (List.mem_cons_of_mem _ hx)

theorem foldl_chunks {fd : Int} {msg : Buffer} {flags n m : Nat} {sends : List SysCall}
    (h : Connection.Chunks fd msg flags n sends m) (p : Process) (c : Call) (cs : List Call) :
    (sends.map fun x => (⟨.sys x,p⟩ : Observation)).foldl Calls.step ⟨some c,cs⟩ =
      ⟨some c,cs⟩ := by
  induction h with
  | nil n => rfl
  | @cons n k m sends hk hn h ih =>
    have hne : ((k : Int) == -1) = false := by
      rw [beq_eq_false_iff_ne]
      omega
    have hstep : Calls.step ⟨some c,cs⟩ ⟨.sys (.send fd (msg.data.drop n) flags k),p⟩ =
        ⟨some c,cs⟩ := by simp [Calls.step,hne]
    rw [List.map_cons,List.foldl_cons,hstep]
    exact ih

/-- What ::send calls do to the call under way, and what they say about the new code. -/
theorem foldl_send {c : ClientInfo} {msg : Buffer} {ec : ErrorCode} {w : World}
    {r : Except Halt ErrorCode × SysState} (hr : (c.conn.send msg ec).run (Net.sysPart w) = r)
    (p : Process) (call : Call) (cs : List Call) : ∃ failed,
      (r.2.calls.map fun x => (⟨.sys x,p⟩ : Observation)).foldl Calls.step ⟨some call,cs⟩ =
        ⟨some { call with failed := call.failed || failed },cs⟩ ∧
      ∀ ec', r.1 = .ok ec' → msg.size ≠ 0 → failed = false →
        (ec'.isSet = false ↔ ec.isSet = false ∧ c.conn.socket ≠ 0) := by
  by_cases hg : c.conn.isConnected = true ∧ msg.size ≠ 0
  · have h0 : c.conn.socket ≠ 0 := by simpa [Connection.isConnected] using hg.1
    obtain ⟨flags,hs⟩ := Connection.send_open ec 0 hg.1 hg.2 (Net.sysPart w)
    rw [hr] at hs
    cases hs with
    | @sent sends s' hc hfds hcalls =>
      have hcalls : s'.calls = sends := by simpa using hcalls
      refine ⟨false,by simp [hcalls,foldl_chunks hc],?_⟩
      intro ec' he _ _
      cases he
      simp [h0]
    | @failed sends m s' e hc hm hfds hcalls =>
      have hcalls : s'.calls = sends++[.send c.conn.socket (msg.data.drop m) flags (-1)] := by
        simpa using hcalls
      refine ⟨true,?_,fun _ _ _ h => by cases h⟩
      simp [hcalls,foldl_chunks hc,Calls.step]
    | @cut sends m s' hc hm hfds hcalls =>
      have hcalls : s'.calls = sends := by simpa using hcalls
      exact ⟨false,by simp [hcalls,foldl_chunks hc],fun _ he => by cases he⟩
  · have hg' := Connection.guard_of_not hg
    rw [Connection.send_guard ec 0 hg' (Net.sysPart w)] at hr
    subst hr
    refine ⟨false,by simp,?_⟩
    intro ec' he hsize _
    cases he
    have h0 : c.conn.socket = 0 := by
      simpa [Connection.isConnected] using hg'.resolve_right hsize
    simp [h0,ErrorCode.isSet,ErrorCode.assign]

theorem Call.recipient_found {call : Call} {i : Nat} {c : ClientInfo}
    (hf : Server.find (fun d => d.id == call.id) call.state.server.clients = .found i c)
    (hc : c.isConnected = true) : call.recipient = some c := by
  simp [recipient,hf,hc]

theorem Server.Messaged.calls {w : World} {msg : Buffer} {id : ClientId}
    {r : Except Halt Unit × World} (h : Messaged msg id w r) :
    ((∃ e, r.1 = .error e) ∧ (Yonaa.calls r.2.log).done = (Yonaa.calls w.log).done) ∨
    ∃ c : Call, c.Kept ∧ Yonaa.calls r.2.log = ⟨none,(Yonaa.calls w.log).done++[c]⟩ := by
  generalize hcs : (Yonaa.calls w.log).done = cs
  have hstart : Yonaa.calls (w.note (.message id msg)).log =
      ⟨some { id := id, msg := msg, state := w.toProcess },cs⟩ := by
    rw [World.note_log,calls_append,← hcs]
    rfl
  have hsent : ∀ (c : ClientInfo) (r : Except Halt ErrorCode × SysState),
      (c.conn.send msg w.server.ec).run (Net.sysPart (w.note (.message id msg))) = r →
      ∃ failed, Yonaa.calls (Net.putSys (w.note (.message id msg)) r.2).log =
        ⟨some { id := id, msg := msg, state := w.toProcess, failed := failed },cs⟩ ∧
        ∀ ec', r.1 = .ok ec' → msg.size ≠ 0 → failed = false →
          (ec'.isSet = false ↔ w.server.ec.isSet = false ∧ c.conn.socket ≠ 0) := by
    intro c r hr
    obtain ⟨failed,hfold,hec⟩ := foldl_send hr w.toProcess
      { id := id, msg := msg, state := w.toProcess } cs
    refine ⟨failed,?_,hec⟩
    rw [World.putSys_log,calls_append,hstart]
    simpa using hfold
  cases h with
  | passed hf =>
    refine Or.inr ⟨{ id := id, msg := msg, state := w.toProcess },?_,?_⟩
    · intro d hd
      simp only [Call.recipient] at hd
      split at hd
      · rw [hf _ _ ‹_›] at hd
        cases hd
      · cases hd
    · rw [World.note_log,calls_append,hstart]
      rfl
  | crash hf =>
    exact Or.inl ⟨⟨_,rfl⟩,by rw [hstart]⟩
  | @sent i c ec s hf hc hsend hec =>
    obtain ⟨failed,hlog,hcode⟩ := hsent c _ hsend
    refine Or.inr ⟨{ id := id, msg := msg, state := w.toProcess, failed := failed },?_,?_⟩
    · intro d hd hsize hfail
      rw [Call.recipient_found hf hc] at hd
      cases hd
      simpa using (hcode ec rfl hsize hfail).mp hec
    · rw [World.note_log,World.withEc_log,calls_append,hlog]
      rfl
  | @failed i c ec s hf hc hsend hec =>
    obtain ⟨failed,hlog,hcode⟩ := hsent c _ hsend
    refine Or.inr ⟨{ id := id, msg := msg, state := w.toProcess, failed := failed, marked := true },
      ?_,?_⟩
    · intro d hd hsize hfail
      rw [Call.recipient_found hf hc] at hd
      cases hd
      have hno := (hcode ec rfl hsize hfail).not.mp (by simp [hec])
      exact ⟨fun h => (nomatch h),fun h => absurd h hno⟩
    · rw [World.note_log,World.mark_log,World.withEc_log,List.append_assoc,calls_append,hlog]
      rfl
  | @cut i c e s hf hc hsend =>
    obtain ⟨failed,hlog,-⟩ := hsent c _ hsend
    exact Or.inl ⟨⟨e,rfl⟩,by rw [hlog]⟩

/-! Each step keeps the invariant. -/

/-- A step's records: nothing gained in it is left over. -/
structure Tail (new : List Observation) : Prop where
  chain : new.IsChain Observation.Next
  fresh : Fresh new

theorem Tail.of_idle {new : List Observation} (h : ∀ o ∈ new, o.gained = false)
    (hf : Fresh new) : Tail new := ⟨chain_of_idle h,hf⟩

structure Honest (x : Point × World) : Prop where
  governed : Governed x.2.log
  spent : x.1 ≠ .dead → Spent x.2.log
  outside : x.1 ≠ .dead → (calls x.2.log).current = none

theorem Honest.outsideStep {p q : Point} {w w' : World} (h : Honest (p,w)) (hp : p ≠ .dead)
    (new : List Observation) (hlog : w'.log = w.log++new) (ht : Tail new)
    (hnew : ∀ o ∈ new, ∀ id msg, o.event ≠ .message id msg)
    (hs : q ≠ .dead → Spent new) : Honest (q,w') := by
  have hcalls := calls_outside (h.outside hp) hnew
  refine ⟨⟨?_,?_⟩,?_,?_⟩
  · rw [hlog]
    exact chain_append h.governed.passed (h.spent hp) ht.chain ht.fresh
  · rw [hlog,hcalls]
    exact h.governed.kept
  · intro hq
    rw [hlog]
    exact spent_append (h.spent hp) (hs hq)
  · intro _
    rw [hlog,hcalls]
    exact h.outside hp

theorem Event.isPlain.not_message {e : Event} (h : e.isPlain) (id : ClientId) (msg : Buffer) :
    e ≠ .message id msg := by
  rintro rfl
  exact h

theorem Event.isPlain.not_call {e : Event} (h : e.isPlain) (call : Callback)
    (he : e = .callback call) : ∃ id, call = .disconnect id := by
  subst he
  cases call with
  | disconnect id => exact ⟨id,rfl⟩
  | _ => exact h.elim

theorem Tail.plain {new : List Observation} (h : ∀ o ∈ new, o.event.isPlain) : Tail new :=
  .of_idle (fun o ho => (h o ho).gained) fun o ho => (h o (List.mem_of_head? ho)).not_call

theorem Tail.nil : Tail [] := .plain (by simp)

theorem Tail.sys (c : SysCall) (p : Process) : Tail [⟨.sys c,p⟩] := by
  refine ⟨.singleton _,?_⟩
  intro o ho call he
  cases Option.mem_some.mp ho
  cases he

theorem Tail.pair {c : SysCall} {p : Process} {o : Observation}
    (h : Observation.Next ⟨.sys c,p⟩ o) : Tail [⟨.sys c,p⟩,o] := by
  refine ⟨.cons_cons h (.singleton _),?_⟩
  intro o ho call he
  cases Option.mem_some.mp ho
  cases he

theorem next_of_set {o o' : Observation} (hec : o.gained = true → o.state.server.ec.isSet = true)
    (h : ∀ call, o'.event = .callback call → ∃ id, call = .disconnect id) : o.Next o' := by
  intro hg
  rw [passedOn_fresh h,hec hg]
  simp

open Server in
theorem Server.Messaged.idle {w : World} {msg : Buffer} {id : ClientId}
    {r : Except Halt Unit × World} (h : Messaged msg id w r) :
    ∃ new, r.2.log = w.log++⟨.message id msg,w.toProcess⟩::new ∧
      ∀ o ∈ new, o.gained = false := by
  obtain ⟨new,hlog,hnew⟩ := h.recorded
  refine ⟨new,hlog,?_⟩
  intro o ho
  have hkind := hnew o ho
  unfold isMessaging at hkind
  unfold Observation.gained
  split at hkind
  next he => rw [he]
  next he => rw [he]
  next he => rw [he]
  next he => rw [he]
  next => exact hkind.elim

open Server in
theorem Honest.accepted {w : World} {r : Except Halt Bool × World} (h : Honest (.accepting,w))
    (ha : Admitted w r) : Honest (Point.accepting.orDead r.1,r.2) := by
  have hp : Point.accepting ≠ .dead := fun h => nomatch h
  cases ha with
  | refused hq hlog =>
    obtain hlog | ⟨p,hps,hlog⟩ := hlog
    · exact h.outsideStep hp [] (by simp [hlog]) .nil (by simp) fun _ o ho => nomatch ho
    · exact h.outsideStep hp _ hlog (.sys _ p) (by simp) fun _ => spent_of_idle (by
        simp [Observation.gained])
  | @dropped w' fd p closes hq hnew hps hec hlog hcloses =>
    have hset : p.server.ec.isSet = true := by rw [hps]; exact hec
    obtain rfl | ⟨q,rfl⟩ := hcloses
    · refine h.outsideStep hp _ hlog (.sys _ p) (by simp) fun _ o ho _ => ?_
      cases Option.mem_some.mp ho
      exact hset
    · refine h.outsideStep hp _ hlog (.pair (next_of_set (fun _ => hset) (by simp))) (by simp)
        fun _ o ho hg => ?_
      cases Option.mem_some.mp ho
      cases hg
  | @registered fd conn p w1 hnew hconn hps hec hfds hs hn hlog =>
    have hnext : Observation.Next ⟨.sys (.accept w.server.acceptor.socket fd),p⟩
        ⟨.callback (.connect w.nextAvailableId),w1.toProcess⟩ := by
      intro _
      have hset : p.server.ec.isSet = false := by rw [hps]; exact hec
      have hnew : (⟨w.nextAvailableId,conn,fd,true⟩ : ClientInfo) ∈
          entries w1.server.clients := by
        rw [hs,entries_concat]
        simp
      have hpass : Observation.passedOn ⟨.sys (.accept w.server.acceptor.socket fd),p⟩
          ⟨.callback (.connect w.nextAvailableId),w1.toProcess⟩ = true :=
        List.any_eq_true.mpr ⟨_,hnew,by simp [hconn]⟩
      simp [hpass,hset]
    refine h.outsideStep hp _ (by rw [World.note_log,hlog,List.append_assoc]; rfl)
      (.pair hnext) (by simp) fun _ o ho hg => ?_
    cases Option.mem_some.mp ho
    cases hg
  | @cut w' hlog =>
    obtain hlog | ⟨fd,p,hps,hlog⟩ := hlog
    · exact h.outsideStep hp [] (by simp [hlog]) .nil (by simp) fun _ o ho => nomatch ho
    · exact h.outsideStep hp _ hlog (.sys _ p) (by simp) fun hq => absurd rfl hq

theorem next_recv {w : World} {fd n : Int} {size flags : Nat} {bytes : List Byte} {o : Observation}
    (hn : 0 < n → w.server.ec.isSet = true)
    (h : ∀ call, o.event = .callback call → ∃ id, call = .disconnect id) :
    Observation.Next ⟨.sys (.recv fd size flags n bytes),w.toProcess⟩ o :=
  next_of_set (fun hg => hn (by simpa [Observation.gained] using hg)) h

open Server in
theorem Honest.received {w : World} {r : Except Halt Bool × World} {e : SocketStatusInfo}
    {es : PollResult} (h : Honest (.events (e::es),w)) (hh : Handled e w r) :
    Honest ((Point.events es).orDead r.1,r.2) := by
  have hp : Point.events (e::es) ≠ .dead := fun h => nomatch h
  have hmark : ∀ (d : ClientInfo) (q : Process), ∀ call,
      (⟨.marked d.id,q⟩ : Observation).event = .callback call → ∃ id, call = .disconnect id :=
    fun _ _ _ h => nomatch h
  have hlast : ∀ (l : List Observation) (d : ClientInfo) (q : Process),
      Spent (l++[⟨.marked d.id,q⟩]) := by
    intro l d q o ho hg
    rw [List.getLast?_concat] at ho
    cases Option.mem_some.mp ho
    cases hg
  cases hh with
  | ignored => exact h.outsideStep hp [] (by simp) .nil (by simp) fun _ o ho => nomatch ho
  | crash => exact h.outsideStep hp [] (by simp) .nil (by simp) fun _ o ho => nomatch ho
  | @hungUp i j c d hf hd =>
    exact h.outsideStep hp _ rfl (.plain (plain_single trivial)) (by simp) fun _ =>
      hlast [] d _
  | @rejected i j c d ec s hf hfds hcalls hd =>
    obtain hcalls | ⟨flags,n,bytes,hn,hcalls⟩ := hcalls
    · exact h.outsideStep hp [⟨.marked d.id,(((Net.putSys w s).withEc ec).mark j d).toProcess⟩]
        (by simp [hcalls]) (.plain (plain_single trivial)) (by simp) fun _ => hlast [] d _
    · exact h.outsideStep hp _ (by
          rw [World.mark_log,World.withEc_log,World.putSys_log,hcalls,List.append_assoc]; rfl)
        (.pair (next_recv hn (hmark d _))) (by simp) fun _ => hlast [_] d _
  | @closed i j flags c d ec s hf hopen hfds hcalls hd =>
    refine h.outsideStep hp _ (by
        rw [World.mark_log,World.withEc_log,World.withClient_log,World.putSys_log,hcalls,
          List.append_assoc]; rfl)
      ⟨.cons_cons (next_recv (fun h => absurd h (by decide)) (by simp)) ?_,?_⟩ (by simp)
      fun _ => hlast [_,_] d _
    · exact chain_of_idle (by simp [Observation.gained])
    · intro o ho call he
      cases Option.mem_some.mp ho
      cases he
  | @delivered i flags c bytes s hf hopen hne hsize hec hfds hcalls =>
    have hc : c ∈ entries w.server.clients := mem_of_getElem? (find_found hf).1
    have hpass : Observation.passedOn
        ⟨.sys (.recv c.conn.socket Connection.maxBufferSize flags bytes.length bytes),w.toProcess⟩
        ⟨.callback (.dataReceive c.id (.ofList bytes)),(Net.putSys w s).toProcess⟩ = true := by
      have hany : ((entries w.server.clients).any fun d =>
          d.id == c.id && d.conn.socket == c.conn.socket) = true :=
        List.any_eq_true.mpr ⟨c,hc,by simp⟩
      simp [Observation.passedOn,hany]
    refine h.outsideStep hp _ (by
        rw [World.note_log,World.putSys_log,hcalls,List.append_assoc]; rfl)
      (.pair fun _ => by simp [hpass,hec]) (by simp) fun _ o ho hg => ?_
    cases Option.mem_some.mp ho
    cases hg
  | @cut i c s hf hcalls =>
    obtain hcalls | ⟨flags,hcalls⟩ := hcalls
    · exact h.outsideStep hp [] (by simp [hcalls]) .nil (by simp) fun hq => absurd rfl hq
    · exact h.outsideStep hp _ (by rw [World.putSys_log,hcalls]; rfl) (.sys _ _) (by simp)
        fun hq => absurd rfl hq

open Server in
theorem Honest.messaged {p : Point} {w : World} {msg : Buffer} {id : ClientId}
    {r : Except Halt Unit × World} (h : Honest (p,w)) (hp : p ≠ .dead)
    (hm : Messaged msg id w r) : Honest (p.orDead r.1,r.2) := by
  obtain ⟨new,hlog,hnew⟩ := hm.idle
  have hidle : ∀ o ∈ (⟨.message id msg,w.toProcess⟩ : Observation)::new, o.gained = false :=
    List.forall_mem_cons.mpr ⟨rfl,hnew⟩
  have hchain : r.2.log.IsChain Observation.Next := by
    rw [hlog]
    refine chain_append h.governed.passed (h.spent hp) (chain_of_idle hidle) ?_
    intro o ho call he
    cases Option.mem_some.mp ho
    cases he
  have hspent : Spent r.2.log := by
    rw [hlog]
    exact spent_append (h.spent hp) (spent_of_idle hidle)
  obtain ⟨⟨e,he⟩,hdone⟩ | ⟨c,hc,hcalls⟩ := hm.calls
  · refine ⟨⟨hchain,by rw [hdone]; exact h.governed.kept⟩,fun _ => hspent,?_⟩
    rw [he]
    exact fun hq => absurd rfl hq
  · refine ⟨⟨hchain,?_⟩,fun _ => hspent,fun _ => by rw [hcalls]⟩
    rw [hcalls]
    exact List.forall_mem_append.mpr ⟨h.governed.kept,by simpa using hc⟩

theorem Reachable.honest {x : Point × World} (hx : Reachable x) : Honest x := by
  refine hx.induct (I := Honest) ?_ ?_
  · intro env
    exact ⟨⟨.nil,fun c hc => nomatch hc⟩,fun _ o ho => (nomatch ho),fun _ => rfl⟩
  · intro x y hx hs ih
    have halive := hs.alive
    cases hs.piece hx.passed.base with
    | plain hlog hnew hstay =>
      exact ih.outsideStep halive _ hlog (.plain hnew) (fun o ho => (hnew o ho).not_message)
        fun _ => spent_of_idle fun o ho => (hnew o ho).gained
    | accepted ha => exact ih.accepted ha
    | messaged hp hm => exact ih.messaged halive hm
    | received hrun hh => exact ih.received hh

/-- In every run, what a call on a socket brings is acted on exactly when `ec_` was clear:
call by call, and for the run as a whole. -/
theorem Environment.error_locality (env : Environment) (fuel : Nat) :
    Governed (env.log fuel) ∧ (ErrorLocal (env.log fuel) ↔ Cleared (env.log fuel)) := by
  obtain ⟨p,hp,-⟩ := env.reachable fuel
  have hg : Governed (env.log fuel) := hp.honest.governed
  exact ⟨hg,hg.errorLocal_iff⟩

/-- ::recv fails on the first client; the second connection is accepted after that. -/
def Environment.reset : Environment where
  port := 5000
  kernel := ⟨[0,1,2],0,[]⟩
  answers := startup++pending 4++[.poll (.ok [0]),.poll (.ok [1]),
    .recv (.error ⟨104,by decide⟩),.shutdown (.ok ()),.close (.ok ())]++pending 5++
    [.shutdown (.ok ()),.close (.ok ()),.poll (.ok [0]),.poll (.ok [])]
  handlers := [[],[]]
  stops := List.replicate 12 false

theorem Environment.reset_not_errorLocal : ¬ErrorLocal (reset.log 5) := by
  intro h
  have hpassed := h.passed
  revert hpassed
  decide +kernel

end Yonaa
