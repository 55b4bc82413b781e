import Yonaa.Pieces
import Yonaa.Registry

/-! What goes out on one descriptor: whole messages, the last one may be cut short. -/
namespace Yonaa

/-- What went out on a descriptor since ::accept last returned it: the messages for the
client that has it, the bytes the kernel took, and whether `message_client` has returned
with bytes missing. -/
structure Stream where
  messages : List (List Byte) := []
  bytes : List Byte := []
  cutShort : Bool := false
deriving DecidableEq

/-- The first client with the id is connected, on the open descriptor fd. -/
def Process.serves (p : Process) (id : ClientId) (fd : Int) : Bool :=
  match Server.find (fun c => c.id == id) p.server.clients with
  | .found _ c => c.isConnected && c.conn.isConnected && c.conn.socket == fd
  | _ => false

def Stream.step (fd : Int) (s : Stream) (o : Observation) : Stream :=
  match o.event with
  | .sys (.accept _ new) => if new = fd then {} else s
  | .sys (.send dst offered _ n) =>
    if dst = fd then { s with bytes := s.bytes++offered.take n.toNat } else s
  | .message id msg =>
    if o.state.serves id fd then { s with messages := s.messages++[msg.data] } else s
  | .messaged _ => { s with cutShort := s.bytes ≠ s.messages.flatten }
  | _ => s

def stream (fd : Int) (log : List Observation) : Stream := log.foldl (Stream.step fd) {}

/-- Whole messages in order, or whole messages and a proper prefix of the last one. -/
inductive Stream.Framed : Stream → Prop where
  | whole (ms : List (List Byte)) (b : Bool) : Framed ⟨ms,ms.flatten,b⟩
  | cut (ms : List (List Byte)) {m p : List Byte} (b : Bool) (hp : p <+: m) (hne : p ≠ m) :
      Framed ⟨ms++[m],ms.flatten++p,b⟩

def Observation.acceptsOn (o : Observation) (fd : Int) : Bool :=
  match o.event with
  | .sys (.accept _ new) => new == fd
  | _ => false

/-- The stream is framed at every moment of the history, and once it was cut short
nothing is added to it before the descriptor is accepted again. -/
structure Streamed (fd : Int) (log : List Observation) : Prop where
  framed : ∀ pre, pre <+: log → (stream fd pre).Framed
  frozen : ∀ pre later, pre++later <+: log → (stream fd pre).cutShort = true →
    (∀ o ∈ later, o.acceptsOn fd = false) → stream fd (pre++later) = stream fd pre

@[simp] theorem stream_snoc (fd : Int) (log : List Observation) (o : Observation) :
    stream fd (log++[o]) = (stream fd log).step fd o := by simp [stream]

/-- Between two calls of `message_client` a stream is cut short when bytes are missing. -/
def Stream.Settled (s : Stream) : Prop := s.cutShort = decide (s.bytes ≠ s.messages.flatten)

structure Stream.Whole (s : Stream) : Prop where
  bytes : s.bytes = s.messages.flatten
  cutShort : s.cutShort = false

theorem Stream.whole_empty : Stream.Whole {} := ⟨rfl,rfl⟩

theorem Stream.Whole.settled {s : Stream} (h : s.Whole) : s.Settled := by
  simp [Settled,h.bytes,h.cutShort]

theorem Stream.Whole.framed {s : Stream} (h : s.Whole) : s.Framed := by
  obtain ⟨ms,bs,b⟩ := s
  obtain rfl : bs = ms.flatten := h.bytes
  exact .whole ms b

theorem Stream.framed_take (ms : List (List Byte)) (m : List Byte) (k : Nat) (b : Bool) :
    Stream.Framed ⟨ms++[m],ms.flatten++m.take k,b⟩ := by
  by_cases hk : m.take k = m
  · have hf : ms.flatten++m.take k = (ms++[m]).flatten := by simp [hk]
    rw [hf]
    exact .whole _ b
  · exact .cut ms b (List.take_prefix k m) hk

theorem Streamed.nil (fd : Int) : Streamed fd [] := by
  refine ⟨?_,?_⟩
  · intro pre hp
    rw [List.prefix_nil.mp hp]
    exact Stream.whole_empty.framed
  · intro pre later hp hc _
    have hnil := List.append_eq_nil_iff.mp (List.prefix_nil.mp hp)
    rw [hnil.1,hnil.2]
    rfl

theorem Streamed.snoc {fd : Int} {log : List Observation} {o : Observation}
    (h : Streamed fd log) (hf : ((stream fd log).step fd o).Framed)
    (hc : (stream fd log).cutShort = true → o.acceptsOn fd = false →
      (stream fd log).step fd o = stream fd log) : Streamed fd (log++[o]) := by
  refine ⟨?_,?_⟩
  · intro pre hp
    obtain rfl | hp := List.prefix_concat_iff.mp hp
    · rw [stream_snoc]
      exact hf
    · exact h.framed pre hp
  · intro pre later hp hcut hacc
    obtain he | hp := List.prefix_concat_iff.mp hp
    · obtain rfl | ⟨later,o',rfl⟩ := List.eq_nil_or_concat later
      · rw [List.append_nil]
      · rw [List.concat_eq_append] at he hacc ⊢
        rw [← List.append_assoc] at he ⊢
        obtain ⟨hpre,ho⟩ := List.append_inj' he rfl
        have ho : o' = o := List.singleton_inj.mp ho
        have hle : pre++later <+: log := hpre ▸ List.prefix_refl _
        have hfro := h.frozen pre later hle hcut fun x hx => hacc x (by simp [hx])
        rw [hpre] at hfro ⊢
        rw [stream_snoc,ho,← hfro]
        refine hc ?_ (hacc o (by simp [ho]))
        rw [hfro]
        exact hcut
    · exact h.frozen pre later hp hcut hacc

def Observation.Idle (fd : Int) (o : Observation) : Prop :=
  match o.event with
  | .sys (.accept _ new) => new ≠ fd
  | .sys (.send dst _ _ _) => dst ≠ fd
  | .message id _ => o.state.serves id fd = false
  | _ => True

theorem Observation.Idle.step {fd : Int} {o : Observation} {s : Stream} (h : o.Idle fd)
    (hs : s.Settled) : s.step fd o = s := by
  obtain ⟨e,p⟩ := o
  cases e with
  | sys c => cases c <;> simp_all [Idle,Stream.step]
  | message id msg => simp_all [Idle,Stream.step]
  | messaged id =>
    obtain ⟨ms,bs,b⟩ := s
    have hb : b = decide (bs ≠ ms.flatten) := hs
    rw [hb]
    rfl
  | _ => rfl

theorem Observation.idle_of_plain {o : Observation} (fd : Int) (h : o.event.isPlain) :
    o.Idle fd := by
  obtain ⟨e,p⟩ := o
  cases e with
  | sys c => cases c with
    | close fd => trivial
    | poll pfds n => trivial
    | _ => exact h.elim
  | message id msg => exact h.elim
  | _ => trivial

theorem Streamed.idle {fd : Int} {log new : List Observation} (h : Streamed fd log)
    (hs : (stream fd log).Settled) (hf : ∀ o ∈ new, o.Idle fd) :
    Streamed fd (log++new) ∧ stream fd (log++new) = stream fd log := by
  induction new generalizing log with
  | nil => simpa using h
  | cons o new ih =>
    have hstep := (hf o List.mem_cons_self).step hs
    have hone : Streamed fd (log++[o]) := by
      refine h.snoc ?_ fun _ _ => hstep
      rw [hstep]
      exact h.framed log (List.prefix_refl _)
    have heq : stream fd (log++[o]) = stream fd log := by rw [stream_snoc,hstep]
    have hrest := ih hone (by rw [heq]; exact hs) fun x hx => hf x (List.mem_cons_of_mem _ hx)
    rw [List.append_assoc,heq] at hrest
    exact hrest

/-- Every descriptor's stream is settled, and whole if a connected client has it. -/
structure Tidy (cs : List (Option ClientInfo)) (log : List Observation) : Prop where
  streamed : ∀ fd, Streamed fd log
  settled : ∀ fd, (stream fd log).Settled
  whole : ∀ c ∈ entries cs, c.isConnected = true → c.conn.socket ≠ 0 →
    (stream c.conn.socket log).Whole

theorem Tidy.idle {cs : List (Option ClientInfo)} {log new : List Observation}
    (h : Tidy cs log) (hnew : ∀ fd, ∀ o ∈ new, o.Idle fd) : Tidy cs (log++new) := by
  have hi := fun fd => (h.streamed fd).idle (h.settled fd) (hnew fd)
  refine ⟨fun fd => (hi fd).1,?_,?_⟩
  · intro fd
    rw [(hi fd).2]
    exact h.settled fd
  · intro c hc hcc h0
    rw [(hi c.conn.socket).2]
    exact h.whole c hc hcc h0

theorem Tidy.plain {cs : List (Option ClientInfo)} {log new : List Observation}
    (h : Tidy cs log) (hnew : ∀ o ∈ new, o.event.isPlain) : Tidy cs (log++new) :=
  h.idle fun fd o ho => o.idle_of_plain fd (hnew o ho)

theorem Tidy.stays {w w' : World} {log : List Observation} (h : Tidy w.server.clients log)
    (hs : Stays w w') : Tidy w'.server.clients log :=
  ⟨h.streamed,h.settled,fun c hc hcc h0 => h.whole c (hs c hc hcc h0) hcc h0⟩

/-- A returned descriptor starts a new stream. -/
theorem Tidy.accept {cs : List (Option ClientInfo)} {log : List Observation} (h : Tidy cs log)
    (fd new : Int) (p : Process) :
    Tidy cs (log++[⟨.sys (.accept fd new),p⟩]) ∧
      stream new (log++[⟨.sys (.accept fd new),p⟩]) = {} := by
  have hstep : ∀ dst, (stream dst log).step dst ⟨.sys (.accept fd new),p⟩ =
      if new = dst then {} else stream dst log := fun _ => rfl
  refine ⟨⟨?_,?_,?_⟩,by rw [stream_snoc,hstep,if_pos rfl]⟩
  · intro dst
    refine (h.streamed dst).snoc ?_ ?_
    · rw [hstep]
      split
      · exact Stream.whole_empty.framed
      · exact (h.streamed dst).framed log (List.prefix_refl _)
    · intro _ hacc
      rw [hstep,if_neg (by simpa [Observation.acceptsOn] using hacc)]
  · intro dst
    rw [stream_snoc,hstep]
    split
    · exact Stream.whole_empty.settled
    · exact h.settled dst
  · intro c hc hcc h0
    rw [stream_snoc,hstep]
    split
    · exact Stream.whole_empty
    · exact h.whole c hc hcc h0

/-- A message under way: k of its bytes were taken. -/
structure Sending (fd : Int) (ms : List (List Byte)) (m : List Byte) (k : Nat)
    (log : List Observation) : Prop where
  streamed : Streamed fd log
  stream : Yonaa.stream fd log = ⟨ms++[m],ms.flatten++m.take k,false⟩

namespace Sending
variable {fd : Int} {ms : List (List Byte)} {m : List Byte} {k : Nat} {log : List Observation}

theorem snoc {j : Nat} {o : Observation} (h : Sending fd ms m k log)
    (ho : (Stream.mk (ms++[m]) (ms.flatten++m.take k) false).step fd o =
      ⟨ms++[m],ms.flatten++m.take j,false⟩) : Sending fd ms m j (log++[o]) := by
  rw [← h.stream] at ho
  refine ⟨h.streamed.snoc ?_ ?_,by rw [stream_snoc,ho]⟩
  · rw [ho]
    exact Stream.framed_take ms m j false
  · intro hc _
    rw [h.stream] at hc
    cases hc

theorem send {flags n : Nat} {p : Process} (h : Sending fd ms m k log) :
    Sending fd ms m (k+n) (log++[⟨.sys (.send fd (m.drop k) flags n),p⟩]) := by
  refine h.snoc ?_
  simp [Stream.step,List.take_add]

theorem failed {flags : Nat} {bytes : List Byte} {p : Process} (h : Sending fd ms m k log) :
    Sending fd ms m k (log++[⟨.sys (.send fd bytes flags (-1)),p⟩]) := by
  refine h.snoc ?_
  simp [Stream.step]

theorem plain {o : Observation} (h : Sending fd ms m k log) (ho : o.event.isPlain) :
    Sending fd ms m k (log++[o]) := by
  refine h.snoc ?_
  obtain ⟨e,p⟩ := o
  cases e with
  | sys c => cases c <;> first | rfl | exact ho.elim
  | message id msg => exact ho.elim
  | messaged id => exact ho.elim
  | _ => rfl

theorem chunks {msg : Buffer} {flags n : Nat} {calls : List SysCall} {p : Process}
    (hc : Connection.Chunks fd msg flags n calls k) (h : Sending fd ms msg.data n log) :
    Sending fd ms msg.data k (log++calls.map fun c => ⟨.sys c,p⟩) := by
  induction hc generalizing log with
  | nil n => simpa using h
  | @cons n j m calls hj hn hc ih =>
    have hsend : Sending fd ms msg.data (n+j)
        (log++[⟨.sys (.send fd (msg.data.drop n) flags j),p⟩]) := h.send
    have hrest := ih hsend
    rw [List.append_assoc] at hrest
    exact hrest

end Sending

/-- `message_client` has sent k bytes of the message to the client c, from the history
`old` on. -/
structure Sent (old : List Observation) (c : ClientInfo) (m : List Byte) (k : Nat)
    (log : List Observation) : Prop where
  other : ∀ fd, (c.conn.socket = 0 ∨ fd ≠ c.conn.socket) →
    Streamed fd log ∧ stream fd log = stream fd old
  own : c.conn.socket ≠ 0 →
    Sending c.conn.socket (stream c.conn.socket old).messages m k log

theorem Process.serves_found {p : Process} {id : ClientId} {i : Nat} {c : ClientInfo}
    (hf : Server.find (fun c => c.id == id) p.server.clients = .found i c)
    (hc : c.isConnected = true) (fd : Int) :
    p.serves id fd = decide (c.conn.socket ≠ 0 ∧ c.conn.socket = fd) := by
  simp only [serves,hf,hc,Connection.isConnected,Bool.true_and]
  by_cases h0 : c.conn.socket = 0 <;> by_cases hfd : c.conn.socket = fd <;> simp_all

section Sent
variable {old log : List Observation} {cs : List (Option ClientInfo)} {c : ClientInfo}
  {m : List Byte} {k : Nat}

theorem Sent.message {id : ClientId} {msg : Buffer} {p : Process} {i : Nat}
    (h : Tidy p.server.clients log)
    (hf : Server.find (fun c => c.id == id) p.server.clients = .found i c)
    (hc : c.isConnected = true) : Sent log c msg.data 0 (log++[⟨.message id msg,p⟩]) := by
  have hserves := p.serves_found hf hc
  refine ⟨?_,?_⟩
  · intro fd hfd
    refine (h.streamed fd).idle (h.settled fd) ?_
    intro o ho
    rw [List.mem_singleton.mp ho]
    change p.serves id fd = false
    rw [hserves]
    refine decide_eq_false ?_
    intro hs
    obtain h0 | hne := hfd
    · exact hs.1 h0
    · exact hne hs.2.symm
  · intro h0
    have hmem := mem_of_getElem? (Server.find_found hf).1
    obtain ⟨hb,hcut⟩ := h.whole c hmem hc h0
    have hstep : (stream c.conn.socket log).step c.conn.socket ⟨.message id msg,p⟩ =
        ⟨(stream c.conn.socket log).messages++[msg.data],
          (stream c.conn.socket log).messages.flatten++msg.data.take 0,false⟩ := by
      simp [Stream.step,hserves,h0,hb,hcut]
    refine ⟨(h.streamed _).snoc ?_ ?_,by rw [stream_snoc,hstep]⟩
    · rw [hstep]
      exact Stream.framed_take _ _ 0 false
    · intro hc' _
      rw [hcut] at hc'
      cases hc'

theorem Sent.untouched {new : List Observation} (h : Sent old c m k log) (ht : Tidy cs old)
    {fd : Int} (hfd : c.conn.socket = 0 ∨ fd ≠ c.conn.socket) (hidle : ∀ o ∈ new, o.Idle fd) :
    Streamed fd (log++new) ∧ stream fd (log++new) = stream fd old := by
  obtain ⟨hs,he⟩ := h.other fd hfd
  have hset : (stream fd log).Settled := by
    rw [he]
    exact ht.settled fd
  rw [← he]
  exact hs.idle hset hidle

theorem Sent.append {j : Nat} {new : List Observation} (h : Sent old c m k log)
    (ht : Tidy cs old) (hother : ∀ fd, (c.conn.socket = 0 ∨ fd ≠ c.conn.socket) →
      ∀ o ∈ new, o.Idle fd)
    (hown : c.conn.socket ≠ 0 → ∀ ms, Sending c.conn.socket ms m k log →
      Sending c.conn.socket ms m j (log++new)) : Sent old c m j (log++new) := by
  refine ⟨?_,fun h0 => hown h0 _ (h.own h0)⟩
  intro fd hfd
  exact h.untouched ht hfd (hother fd hfd)

theorem Sent.plain {o : Observation} (h : Sent old c m k log) (ht : Tidy cs old)
    (ho : o.event.isPlain) : Sent old c m k (log++[o]) :=
  h.append ht (fun fd _ x hx => by rw [List.mem_singleton.mp hx]; exact o.idle_of_plain fd ho)
    fun _ _ hs => hs.plain ho

theorem Sent.messaged (h : Sent old c m k log) (ht : Tidy cs old) (id : ClientId)
    (p : Process) : (∀ fd, Streamed fd (log++[⟨.messaged id,p⟩])) ∧
      (∀ fd, (stream fd (log++[⟨.messaged id,p⟩])).Settled) ∧
      (∀ fd, (c.conn.socket = 0 ∨ fd ≠ c.conn.socket) →
        stream fd (log++[⟨.messaged id,p⟩]) = stream fd old) ∧
      (c.conn.socket ≠ 0 → m.take k = m →
        (stream c.conn.socket (log++[⟨.messaged id,p⟩])).Whole) := by
  have hother : ∀ fd, (c.conn.socket = 0 ∨ fd ≠ c.conn.socket) →
      Streamed fd (log++[⟨.messaged id,p⟩]) ∧
      stream fd (log++[⟨.messaged id,p⟩]) = stream fd old := by
    intro fd hfd
    exact h.untouched ht hfd (by simp [Observation.Idle])
  have hown : c.conn.socket ≠ 0 → Streamed c.conn.socket (log++[⟨.messaged id,p⟩]) ∧
      (stream c.conn.socket (log++[⟨.messaged id,p⟩])).Settled ∧
      (m.take k = m → (stream c.conn.socket (log++[⟨.messaged id,p⟩])).Whole) := by
    intro h0
    obtain ⟨hs,he⟩ := h.own h0
    have hstep : ∀ s : Stream, s.step c.conn.socket ⟨.messaged id,p⟩ =
        { s with cutShort := s.bytes ≠ s.messages.flatten } := fun _ => rfl
    refine ⟨hs.snoc ?_ ?_,?_,?_⟩
    · rw [hstep,he]
      exact Stream.framed_take _ m k _
    · intro hc _
      rw [he] at hc
      cases hc
    · rw [stream_snoc,hstep]
      rfl
    · intro hk
      rw [stream_snoc,hstep,he,hk]
      exact ⟨by simp,by simp⟩
  refine ⟨?_,?_,fun fd hfd => (hother fd hfd).2,fun h0 => (hown h0).2.2⟩
  · intro fd
    by_cases hfd : c.conn.socket = 0 ∨ fd ≠ c.conn.socket
    · exact (hother fd hfd).1
    · simp only [not_or,not_not] at hfd
      rw [hfd.2]
      exact (hown hfd.1).1
  · intro fd
    by_cases hfd : c.conn.socket = 0 ∨ fd ≠ c.conn.socket
    · rw [(hother fd hfd).2]
      exact ht.settled fd
    · simp only [not_or,not_not] at hfd
      rw [hfd.2]
      exact (hown hfd.1).2.1

/-- The calls of ::send go through the message; without an error through all of it. -/
theorem Sent.send {msg : Buffer} {ec : ErrorCode} {p : Process} {w : World}
    {r : Except Halt ErrorCode × SysState} (h : Sent old c msg.data 0 log) (ht : Tidy cs old)
    (hr : (c.conn.send msg ec).run (Net.sysPart w) = r) :
    ∃ k, Sent old c msg.data k (log++r.2.calls.map fun x => ⟨.sys x,p⟩) ∧
      ∀ ec', r.1 = .ok ec' → ec'.isSet = false → msg.data.take k = msg.data := by
  by_cases hg : c.conn.isConnected = true ∧ msg.size ≠ 0
  · have h0 : c.conn.socket ≠ 0 := by simpa [Connection.isConnected] using hg.1
    have hidle : ∀ calls : List SysCall, (∀ x ∈ calls, ∃ offered flags n,
        x = .send c.conn.socket offered flags n) → ∀ fd,
        (c.conn.socket = 0 ∨ fd ≠ c.conn.socket) →
        ∀ o ∈ calls.map fun x => (⟨.sys x,p⟩ : Observation), o.Idle fd := by
      intro calls hcalls fd hfd o ho
      obtain ⟨x,hx,rfl⟩ := List.mem_map.mp ho
      obtain ⟨offered,flags,n,rfl⟩ := hcalls x hx
      exact fun he => hfd.resolve_left h0 he.symm
    obtain ⟨flags,hs⟩ := Connection.send_open ec 0 hg.1 hg.2 (Net.sysPart w)
    rw [hr] at hs
    cases hs with
    | @sent calls s' hc hfds hcalls =>
      refine ⟨msg.size,?_,fun _ _ _ => List.take_length⟩
      have hcalls : s'.calls = calls := by simpa using hcalls
      rw [hcalls]
      exact h.append ht (hidle calls hc.sends) fun _ ms hs => hs.chunks hc
    | @failed calls k s' e hc hk hfds hcalls =>
      refine ⟨k,?_,fun ec' he hec => ?_⟩
      · have hcalls : s'.calls = calls++[.send c.conn.socket (msg.data.drop k) flags (-1)] := by
          simpa using hcalls
        rw [hcalls,List.map_append,← List.append_assoc]
        have hsent : Sent old c msg.data k (log++calls.map fun x => ⟨.sys x,p⟩) :=
          h.append ht (hidle calls hc.sends) fun _ ms hs => hs.chunks hc
        exact hsent.append ht (hidle [_] (by simp)) fun _ ms hs => hs.failed
      · cases he
        rw [ErrorCode.isSet_errno] at hec
        cases hec
    | @cut calls k s' hc hk hfds hcalls =>
      refine ⟨k,?_,fun ec' he => by cases he⟩
      have hcalls : s'.calls = calls := by simpa using hcalls
      rw [hcalls]
      exact h.append ht (hidle calls hc.sends) fun _ ms hs => hs.chunks hc
  · rw [Connection.send_guard ec 0 (Connection.guard_of_not hg) (Net.sysPart w)] at hr
    subst hr
    refine ⟨0,by simpa using h,fun ec' he hec => ?_⟩
    cases he
    cases hec

end Sent

theorem Sent.streamed {old log : List Observation} {c : ClientInfo} {m : List Byte} {k : Nat}
    (h : Sent old c m k log) (fd : Int) : Streamed fd log := by
  by_cases hfd : c.conn.socket = 0 ∨ fd ≠ c.conn.socket
  · exact (h.other fd hfd).1
  · simp only [not_or,not_not] at hfd
    rw [hfd.2]
    exact (h.own hfd.1).streamed

theorem Process.serves_eq_false {p : Process} {id : ClientId} (fd : Int)
    (h : ∀ i c, Server.find (fun c => c.id == id) p.server.clients = .found i c →
      c.isConnected = false) : p.serves id fd = false := by
  unfold serves
  cases hf : Server.find (fun c => c.id == id) p.server.clients with
  | found i c => simp [h i c hf]
  | _ => rfl

theorem Tidy.messaged {w : World} {msg : Buffer} {id : ClientId}
    {r : Except Halt Unit × World} (h : Tidy w.server.clients w.log) (hs : Sound w)
    (hm : Server.Messaged msg id w r) : (∀ fd, Streamed fd r.2.log) ∧
      (∀ a, r.1 = .ok a → Tidy r.2.server.clients r.2.log) := by
  cases hm with
  | passed hf =>
    have hidle : ∀ fd, ∀ o ∈ [(⟨.message id msg,w.toProcess⟩ : Observation),
        ⟨.messaged id,w.toProcess⟩], o.Idle fd := by
      intro fd o ho
      obtain rfl | ho := List.mem_cons.mp ho
      · exact w.toProcess.serves_eq_false fd hf
      · rw [List.mem_singleton.mp ho]
        trivial
    have ht := h.idle hidle
    rw [List.append_cons] at ht
    exact ⟨ht.streamed,fun _ _ => ht⟩
  | crash hf =>
    have hidle : ∀ fd, ∀ o ∈ [(⟨.message id msg,w.toProcess⟩ : Observation)], o.Idle fd := by
      intro fd o ho
      rw [List.mem_singleton.mp ho]
      refine w.toProcess.serves_eq_false fd fun i c hc => ?_
      rw [hf] at hc
      cases hc
    exact ⟨(h.idle hidle).streamed,fun a ha => nomatch ha⟩
  | @sent i c ec s hf hc hsend hec =>
    obtain ⟨k,hsent,hk⟩ := (Sent.message h hf hc).send (p := w.toProcess) h hsend
    obtain ⟨hst,hset,hother,hown⟩ := hsent.messaged h id
      ((Net.putSys (w.note (.message id msg)) s).withEc ec).toProcess
    refine ⟨hst,fun _ _ => ⟨hst,hset,?_⟩⟩
    intro d hd hdc h0
    by_cases hcd : d.conn.socket = c.conn.socket
    · rw [hcd] at h0 ⊢
      exact hown h0 (hk ec rfl hec)
    · have hd' := h.whole d hd hdc h0
      rw [← hother _ (Or.inr hcd)] at hd'
      exact hd'
  | @failed i c ec s hf hc hsend hec =>
    obtain ⟨k,hsent,-⟩ := (Sent.message h hf hc).send (p := w.toProcess) h hsend
    have hmark := hsent.plain (o := ⟨.marked c.id,
      (((Net.putSys (w.note (.message id msg)) s).withEc ec).mark i c).toProcess⟩) h trivial
    obtain ⟨hst,hset,hother,-⟩ := hmark.messaged h id
      (((Net.putSys (w.note (.message id msg)) s).withEc ec).mark i c).toProcess
    refine ⟨hst,fun _ _ => ⟨hst,hset,?_⟩⟩
    intro d hd hdc h0
    -- the marked entry is out; no other entry has its socket
    obtain rfl | ⟨hd,hcd⟩ := hs.others (Server.find_found hf).1 hd
    · cases hdc
    · have hd' := h.whole d hd hdc h0
      rw [← hother _ (Or.inr (Apart.symm c d hcd h0))] at hd'
      exact hd'
  | @cut i c e s hf hc hsend =>
    obtain ⟨k,hsent,-⟩ := (Sent.message h hf hc).send (p := w.toProcess) h hsend
    exact ⟨hsent.streamed,fun a ha => nomatch ha⟩

structure Served (x : Point × World) : Prop where
  streamed : ∀ fd, Streamed fd x.2.log
  tidy : x.1 ≠ .dead → Tidy x.2.server.clients x.2.log

theorem Served.of_tidy {p : Point} {w : World} (h : Tidy w.server.clients w.log) :
    Served (p,w) := ⟨h.streamed,fun _ => h⟩

open Server in
theorem Server.Handled.idle {e : SocketStatusInfo} {w : World} {r : Except Halt Bool × World}
    (h : Handled e w r) : ∃ new, r.2.log = w.log++new ∧ (∀ fd, ∀ o ∈ new, o.Idle fd) ∧
      (∀ b, r.1 = .ok b → Stays w r.2) := by
  cases h with
  | ignored => exact ⟨[],by simp,by simp,fun _ _ => .refl w⟩
  | crash => exact ⟨[],by simp,by simp,fun b hb => nomatch hb⟩
  | hungUp hf hd => exact ⟨_,rfl,by simp [Observation.Idle],fun _ _ => .mark (find_found hd).1⟩
  | @rejected i j c d ec s hf hfds hcalls hd =>
    refine ⟨_,List.append_assoc _ _ _,?_,fun _ _ =>
      .mark (w := (Net.putSys w s).withEc ec) (find_found hd).1⟩
    obtain hcalls | ⟨flags,n,bytes,-,hcalls⟩ := hcalls
    · simp [hcalls,Observation.Idle]
    · simp [hcalls,Observation.Idle]
  | @closed i j flags c d ec s hf hopen hfds hcalls hd =>
    refine ⟨_,List.append_assoc _ _ _,by simp [hcalls,Observation.Idle],fun _ _ => ?_⟩
    have hclose : Stays w ((Net.putSys w s).withClient i { c with conn := {} }) :=
      .of_set (find_found hf).1 rfl (Or.inr rfl)
    exact hclose.trans (.mark (w := ((Net.putSys w s).withClient i _).withEc ec)
      (find_found hd).1)
  | delivered hf hopen hne hsize hec hfds hcalls =>
    exact ⟨_,List.append_assoc _ _ _,by simp [hcalls,Observation.Idle],
      fun _ _ => .of_clients rfl⟩
  | @cut i c s hf hcalls =>
    refine ⟨_,rfl,?_,fun b hb => nomatch hb⟩
    obtain hcalls | ⟨flags,hcalls⟩ := hcalls
    · simp [hcalls]
    · simp [hcalls,Observation.Idle]

open Server in
theorem Piece.served {x y : Point × World} (hp : Piece x y) (hx : x.1 ≠ .dead)
    (hs : Sound x.2) (h : Served x) : Served y := by
  have ht := h.tidy hx
  cases hp with
  | plain hlog hnew hstay =>
    refine ⟨by rw [hlog]; exact (ht.plain hnew).streamed,?_⟩
    intro hy
    rw [hlog]
    exact (ht.plain hnew).stays (hstay.resolve_left hy)
  | @accepted w r ha =>
    cases ha with
    | refused hq hlog =>
      refine .of_tidy ?_
      rw [hq.clients]
      obtain hlog | ⟨p,-,hlog⟩ := hlog
      · rw [hlog]
        exact ht
      · rw [hlog]
        exact (ht.accept _ _ p).1
    | @dropped w' fd p closes hq hnew hp hec hlog hcloses =>
      refine .of_tidy ?_
      rw [hq.clients,hlog,List.append_cons]
      refine (ht.accept _ _ p).1.plain ?_
      obtain rfl | ⟨q,rfl⟩ := hcloses
      · simp
      · exact plain_single trivial
    | @registered fd conn p w1 hnew hconn hp hec hfds hs hn hlog =>
      obtain ⟨hacc,hempty⟩ := ht.accept w.server.acceptor.socket fd p
      suffices ht1 : Tidy w1.server.clients w1.log from
        .of_tidy (ht1.idle (by simp [Observation.Idle]))
      rw [hlog]
      refine ⟨hacc.streamed,hacc.settled,?_⟩
      intro c hc hcc h0
      rw [hs,entries_concat] at hc
      obtain hc | hc := List.mem_append.mp hc
      · exact hacc.whole c hc hcc h0
      · rw [List.mem_singleton.mp hc,hconn,hempty]
        exact Stream.whole_empty
    | @cut w' hlog =>
      refine ⟨?_,fun hy => absurd rfl hy⟩
      obtain hlog | ⟨fd,p,-,hlog⟩ := hlog
      · rw [hlog]
        exact ht.streamed
      · rw [hlog]
        exact (ht.accept _ _ p).1.streamed
  | @messaged p w r msg id hp hm =>
    obtain ⟨hst,htidy⟩ := ht.messaged hs hm
    refine ⟨hst,?_⟩
    cases r with
    | mk r w' => cases r with
      | ok a => exact fun _ => htidy a rfl
      | error e => exact fun hy => absurd rfl hy
  | @received w r e es hrun hh =>
    obtain ⟨new,hlog,hidle,hstay⟩ := hh.idle
    refine ⟨by rw [hlog]; exact (ht.idle hidle).streamed,?_⟩
    intro hy
    rw [hlog]
    refine (ht.idle hidle).stays ?_
    cases r with
    | mk r w' => cases r with
      | ok a => exact hstay a rfl
      | error e => exact absurd rfl hy

theorem Reachable.served {x : Point × World} (hx : Reachable x) : Served x := by
  refine hx.induct (I := Served) ?_ ?_
  · intro env
    refine .of_tidy ⟨Streamed.nil,fun _ => Stream.whole_empty.settled,?_⟩
    intro c hc
    exact absurd hc List.not_mem_nil
  · intro x y hx hs ih
    have hbase := hx.passed.base
    exact (hs.piece hbase).served hs.alive (hbase.sound hs.alive) ih

/-- Outbound stream integrity of every run, for every descriptor. -/
theorem Environment.stream_integrity (env : Environment) (fuel : Nat) (fd : Int) :
    Streamed fd (env.log fuel) := by
  obtain ⟨p,hp,-⟩ := env.reachable fuel
  exact hp.served.streamed fd

/-- A message to the second client is cut short, and two more follow. -/
def Environment.torn : Environment where
  port := 5000
  kernel := ⟨[0,1,2],0,[]⟩
  answers := startup++pending 4++pending 5++[.poll (.ok [0]),.poll (.ok [1,0]),
    .recv (.ok [7,8,9]),.send (.ok 3),.send (.ok 2),.send (.error ⟨110,by decide⟩),.send (.ok 1)]
  handlers := [[],[],[.messageAllClients (.ofList [7,8,9]) 0,.messageClient (.ofList [1]) 2,
    .messageAllClients (.ofList [2]) 0]]
  stops := List.replicate 10 false

theorem Environment.stream_integrity_torn :
    (stream 5 ((torn.log 5).take 19)).cutShort = true ∧
    (∃ o ∈ (torn.log 5).drop 19, o.event = .message 2 (.ofList [1])) ∧
    (∃ o ∈ (torn.log 5).drop 19, o.event = .message 2 (.ofList [2])) ∧
    stream 5 (torn.log 5) = stream 5 ((torn.log 5).take 19) ∧
    (stream 5 (torn.log 5)).Framed := by
  have hsplit := List.take_append_drop 19 (torn.log 5)
  have hcut : (stream 5 ((torn.log 5).take 19)).cutShort = true := by decide +kernel
  have hs := torn.stream_integrity 5 5
  have hfrozen := hs.frozen ((torn.log 5).take 19) ((torn.log 5).drop 19)
    (by rw [hsplit]) hcut (by decide +kernel)
  rw [hsplit] at hfrozen
  exact ⟨hcut,by decide +kernel,by decide +kernel,hfrozen,hs.framed _ (List.prefix_refl _)⟩

/-- The second client of the broadcast gets two of the three bytes. -/
example : stream 5 (Environment.broadcast.log 5) = ⟨[[7,8,9]],[7,8],true⟩ := by decide +kernel

end Yonaa
