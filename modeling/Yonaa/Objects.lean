import Yonaa.Machine
import Yonaa.Ownership
import Yonaa.Creation

/-! Any number of connections and acceptors, each under a name (its address), and any
sequence of operations on them. -/
namespace Yonaa
open Machine Ownership

theorem Connection.isConnected_iff {c : Connection} : c.isConnected = true ↔ c.socket ≠ 0 := by
  simp [isConnected]

theorem Connection.isConnected_false {c : Connection} : c.isConnected = false ↔ c.socket = 0 := by
  simp [isConnected]

theorem Acceptor.isOpen_iff {a : Acceptor} : a.isOpen = true ↔ a.socket ≠ 0 := by
  simp [isOpen]

theorem Acceptor.isOpen_false {a : Acceptor} : a.isOpen = false ↔ a.socket = 0 := by
  simp [isOpen]

/-- `operator=(connection &&other)`: what it writes to its object, and then to `other`. -/
def Connection.moveFrom (other : Connection) : Connection × Connection :=
  (⟨other.socket, other.localEndpoint, other.remoteEndpoint⟩, {})

def Acceptor.destroy (a : Acceptor) : Sys Unit := do
  if a.isOpen then
    let _ ← a.close

theorem Acceptor.destroy_closed {a : Acceptor} (h : a.isOpen = false) (s : SysState) :
    a.destroy.run s = (.ok (), s) := by
  simp only [destroy,h,Bool.false_eq_true,if_false]
  rfl

theorem Acceptor.destroy_open {a : Acceptor} (h : a.isOpen = true) (s : SysState) :
    (∃ s', a.destroy.run s = (.ok (), s') ∧
      s'.kernel.fds = s.kernel.fds.filter (· ≠ a.socket) ∧
      s'.calls = s.calls++[.close a.socket] ∧ s'.answers <:+ s.answers) ∨
    (∃ s', a.destroy.run s = (.error .cut, s') ∧ Sys.Same s s') := by
  simp only [destroy,h,if_true]
  obtain ⟨s',hr,hs⟩ | ⟨s',hr,hs⟩ := close_open h s
  · exact Or.inl ⟨s',Prog.bind_ok hr,hs⟩
  · exact Or.inr ⟨s',Prog.bind_error hr,hs⟩

inductive Object where
  | connection (c : Connection)
  | acceptor (a : Acceptor)
deriving DecidableEq

def Object.socket : Object → Int
  | .connection c => c.socket
  | .acceptor a => a.socket

/-- The descriptor an object owns; 0 is "none". -/
def Object.held (o : Object) : Option Int := if o.socket = 0 then none else some o.socket

theorem Object.held_of_zero {o : Object} (h : o.socket = 0) : o.held = none := if_pos h

theorem Object.held_of_ne {o : Object} (h : o.socket ≠ 0) : o.held = some o.socket := if_neg h

def SysCall.on : SysCall → Option Int
  | .poll _ _ => none
  | .accept fd _ | .send fd _ _ _ | .recv fd _ _ _ _ | .close fd => some fd

def Answer.descriptor : Answer → Option Int
  | .accept (.ok fd) _ | .socket (.ok fd) => some fd
  | _ => none

structure Pool (κ : Type) where
  objects : κ → Option Object
  sys : SysState

namespace Pool
variable {κ : Type}

/-- The operations, each on the object of its first name. -/
inductive Act (κ : Type) where
  | connection (k : κ)                        -- `connection()`
  | acceptor (k : κ)                          -- `acceptor()`
  | connect (k : κ) (remoteEndpoints : List Endpoint) (ec : ErrorCode)
  | openOn (k : κ) (localEndpoints : List Endpoint) (ec : ErrorCode) (reuseAddr : Bool)
  | accept (k new : κ) (ec : ErrorCode)       -- into a new object
  | moveConstruct (k other : κ)
  | moveAssign (k other : κ)                  -- `other` may be `k`
  | send (k : κ) (data : Buffer) (ec : ErrorCode) (flags : Nat)
  | receive (k : κ) (size : Nat) (ec : ErrorCode) (flags : Nat)
  | disconnect (k : κ)
  | close (k : κ)
  | destroy (k : κ)

def Act.subject : Act κ → κ
  | .connection k | .acceptor k | .connect k _ _ | .openOn k _ _ _ | .accept k _ _
  | .moveConstruct k _ | .moveAssign k _ | .send k _ _ _ | .receive k _ _ _ | .disconnect k
  | .close k | .destroy k => k

abbrev Run (κ : Type) := Prog Halt (Pool κ)

def call {α : Type} (m : Sys α) : Run κ α :=
  Prog.zoom (·.sys) (fun p s => { p with sys := s }) m

def connectionAt (k : κ) : Run κ Connection := do
  match (← Prog.get).objects k with
  | some (.connection c) => return c
  | _ => Prog.stop .cut

def acceptorAt (k : κ) : Run κ Acceptor := do
  match (← Prog.get).objects k with
  | some (.acceptor a) => return a
  | _ => Prog.stop .cut

/-- A new object has a name that no live object has. -/
def vacant (k : κ) : Run κ Unit := do
  match (← Prog.get).objects k with
  | none => return ()
  | some _ => Prog.stop .cut

variable [DecidableEq κ]

def put (k : κ) (o : Option Object) : Run κ Unit :=
  Prog.modify fun p => { p with objects := Function.update p.objects k o }

/-- The assignments to the members of `k` come before those to the members of `other`. -/
def move (k other : κ) : Run κ Unit := do
  let _ ← connectionAt k
  let (c, c') := (← connectionAt other).moveFrom
  put k (some (.connection c))
  put other (some (.connection c'))

def exec : Act κ → Run κ Unit
  | .connection k => do
    vacant k
    put k (some (.connection {}))
  | .acceptor k => do
    vacant k
    put k (some (.acceptor ⟨0, .empty⟩))
  | .connect k remoteEndpoints ec => do
    let c ← connectionAt k
    let (c', _) ← call (c.connect remoteEndpoints ec)
    put k (some (.connection c'))
  | .openOn k localEndpoints ec reuseAddr => do
    let a ← acceptorAt k
    let (a', _) ← call (a.openOn localEndpoints ec reuseAddr)
    put k (some (.acceptor a'))
  | .accept k new ec => do
    vacant new
    let a ← acceptorAt k
    let (conn, _) ← call (a.accept ec)
    put new (some (.connection conn))
  | .moveConstruct k other => do
    vacant k
    put k (some (.connection {}))
    move k other
  | .moveAssign k other => move k other
  | .send k data ec flags => do
    let c ← connectionAt k
    let _ ← call (c.send data ec flags)
  | .receive k size ec flags => do
    let c ← connectionAt k
    let (_, c', _) ← call (c.receive size ec flags)
    put k (some (.connection c'))
  | .disconnect k => do
    let c ← connectionAt k
    let c' ← call c.disconnect
    put k (some (.connection c'))
  | .close k => do
    let a ← acceptorAt k
    let a' ← call a.close
    put k (some (.acceptor a'))
  | .destroy k => do
    match (← Prog.get).objects k with
    | some (.connection c) =>
      call c.destroy
      put k none
    | some (.acceptor a) =>
      call a.destroy
      put k none
    | none => Prog.stop .cut

/-- An operation that returns; the kernel's answers are consumed from the front. -/
def step (p : Pool κ) (a : Act κ) : Option (Pool κ) :=
  match (exec a).run p with
  | (.ok (), t) => some t
  | (.error _, _) => none

/-- No objects yet, and any descriptors that are open already. -/
def initial (kernel : Kernel) (answers : List Answer) : Pool κ :=
  ⟨fun _ => none, kernel, answers, []⟩

def ledger (p : Pool κ) : Ledger κ Int where
  held k := (p.objects k).bind Object.held
  live := { fd | fd ∈ p.sys.kernel.fds }

/-- What `create_connected_socket` or `create_listening_socket` finds in this operation. -/
def creates (p : Pool κ) : Act κ → Option (Int × List Answer)
  | .connect _ es _ => (opened [Stage.connect] p.sys.kernel.fds es p.sys.answers).map Prod.snd
  | .openOn _ es _ reuseAddr => (opened (listening Acceptor.backlogSize reuseAddr)
      p.sys.kernel.fds es p.sys.answers).map Prod.snd
  | _ => none

/-- The operation does not overwrite a descriptor that its object holds. -/
def Spares (p : Pool κ) (a : Act κ) : Prop :=
  match a with
  | .connect k _ _ | .openOn k _ _ _ => p.ledger.held k = none ∨ p.creates a = none
  | .moveAssign k _ => p.ledger.held k = none
  | _ => True

/-- A `create` function leaves no descriptor open but the one it returns. -/
def Single (m : Sys Int) (s : SysState) : Prop :=
  ∀ fd ∈ (m.run s).2.kernel.fds, fd ∈ s.kernel.fds ∨ (m.run s).1 = .ok fd

def Tidy (p : Pool κ) : Act κ → Prop
  | .connect _ es _ => Single (SocketOps.createConnectedSocket es) p.sys
  | .openOn _ es _ reuseAddr =>
    Single (SocketOps.createListeningSocket Acceptor.backlogSize reuseAddr es) p.sys
  | _ => True

instance (p : Pool κ) (a : Act κ) : Decidable (p.Spares a) :=
  match a with
  | .connect k es ec => inferInstanceAs
      (Decidable (p.ledger.held k = none ∨ p.creates (.connect k es ec) = none))
  | .openOn k es ec reuseAddr => inferInstanceAs
      (Decidable (p.ledger.held k = none ∨ p.creates (.openOn k es ec reuseAddr) = none))
  | .moveAssign k _ => inferInstanceAs (Decidable (p.ledger.held k = none))
  | .connection _ | .acceptor _ | .accept _ _ _ | .moveConstruct _ _ | .send _ _ _ _
  | .receive _ _ _ _ | .disconnect _ | .close _ | .destroy _ => isTrue trivial

instance (m : Sys Int) (s : SysState) : Decidable (Single m s) :=
  inferInstanceAs (Decidable (∀ fd ∈ (m.run s).2.kernel.fds,
    fd ∈ s.kernel.fds ∨ (m.run s).1 = .ok fd))

instance (p : Pool κ) (a : Act κ) : Decidable (p.Tidy a) :=
  match a with
  | .connect _ es _ =>
    inferInstanceAs (Decidable (Single (SocketOps.createConnectedSocket es) p.sys))
  | .openOn _ es _ reuseAddr => inferInstanceAs (Decidable
      (Single (SocketOps.createListeningSocket Acceptor.backlogSize reuseAddr es) p.sys))
  | .connection _ | .acceptor _ | .accept _ _ _ | .moveConstruct _ _ | .moveAssign _ _
  | .send _ _ _ _ | .receive _ _ _ _ | .disconnect _ | .close _ | .destroy _ => isTrue trivial

/-! What an operation can do. -/

/-- What an operation that returns has done to the ledger. -/
inductive Done (p : Pool κ) (a : Act κ) (calls : List SysCall) (m : Ledger κ Int) : Prop where
  | same (ha : p.Spares a) (hno : ∀ fd, .close fd ∉ calls) (h : m = p.ledger)
  | missed {live : Set Int} (ha : p.Spares a) (hno : calls = [])
      (hlive : p.ledger.live ⊆ live) (hnew : ∀ fd ∈ live, fd ∉ p.ledger.live →
        fd ∈ p.sys.answers.filterMap Answer.descriptor ∧ (p.Tidy a → fd = 0))
      (h : m = ⟨p.ledger.held,live⟩)
  | created {live : Set Int} {k : κ} {fd : Int} (ha : p.Spares a ↔ p.ledger.held k = none)
      (hno : ∀ fd, .close fd ∉ calls) (hfd : fd ∉ p.ledger.live) (hmem : fd ∈ live)
      (hlive : p.ledger.live ⊆ live) (htidy : p.Tidy a → live ⊆ insert fd p.ledger.live)
      (h : m = ⟨Function.update p.ledger.held k (some fd),live⟩)
  | zero {live : Set Int} (hzero : 0 ∈ p.sys.answers.filterMap Answer.descriptor)
      (hno : ∀ fd, .close fd ∉ calls) (hlive : p.ledger.live ⊆ live)
      (h : m = ⟨p.ledger.held,live⟩)
  | moved {k j : κ} (ha : p.Spares a ↔ p.ledger.held k = none) (hno : calls = [])
      (h : m = ⟨Function.update (Function.update p.ledger.held k (p.ledger.held j)) j none,
        p.ledger.live⟩)
  | closed {fd : Int} (ha : p.Spares a) (hheld : p.ledger.held a.subject = some fd)
      (hcl : ∃ l, calls = l++[.close fd] ∧ ∀ fd', .close fd' ∉ l)
      (h : m = ⟨Function.update p.ledger.held a.subject none,p.ledger.live \ {fd}⟩)

/-- The calls of an operation are made on the descriptor its object owns. -/
def Own (p : Pool κ) (a : Act κ) (calls : List SysCall) : Prop :=
  ∀ x ∈ calls, ∀ fd, x.on = some fd → p.ledger.held a.subject = some fd

/-- An operation returns, or the kernel gives no further answer. -/
inductive Performed (p : Pool κ) (a : Act κ) : Except Halt Unit × Pool κ → Prop where
  | done {t : Pool κ} {l : List SysCall} (hcalls : t.sys.calls = p.sys.calls++l)
      (hown : p.Own a l) (hans : t.sys.answers <:+ p.sys.answers)
      (h : Done p a l t.ledger) : Performed p a (.ok (), t)
  | cut {t : Pool κ} {l : List SysCall} {e : Halt}
      (hcalls : t.sys.calls = p.sys.calls++l) (hown : p.Own a l)
      (hno : ∀ fd, .close fd ∉ l) : Performed p a (.error e, t)

section Lemmas
variable {p q : Pool κ} {a : Act κ} {k : κ} {α : Type}

omit [DecidableEq κ] in
theorem call_ok {m : Sys α} {x : α} {s' : SysState} (h : m.run p.sys = (.ok x, s')) :
    (call m).run p = (.ok x, ⟨p.objects,s'⟩) := by
  simp [call,Prog.zoom,h]

omit [DecidableEq κ] in
theorem call_error {m : Sys α} {e : Halt} {s' : SysState} (h : m.run p.sys = (.error e, s')) :
    (call m).run p = (.error e, ⟨p.objects,s'⟩) := by
  simp [call,Prog.zoom,h]

theorem Performed.stop (hq : q.sys = p.sys) : Performed p a (.error .cut, q) :=
  .cut (l := []) (by rw [hq,List.append_nil]) (fun _ hx => by cases hx)
    fun _ hx => by cases hx

theorem Performed.connectionAt {f : Connection → Run κ Unit} (hq : q.sys = p.sys)
    (h : ∀ c, q.objects k = some (.connection c) → Performed p a ((f c).run q)) :
    Performed p a ((Pool.connectionAt k >>= f).run q) := by
  unfold Pool.connectionAt
  cases ho : q.objects k with
  | none => simpa [ho] using Performed.stop hq
  | some o => cases o with
    | connection c => simpa [ho] using h c ho
    | acceptor a => simpa [ho] using Performed.stop hq

theorem Performed.acceptorAt {f : Acceptor → Run κ Unit} (hq : q.sys = p.sys)
    (h : ∀ x, q.objects k = some (.acceptor x) → Performed p a ((f x).run q)) :
    Performed p a ((Pool.acceptorAt k >>= f).run q) := by
  unfold Pool.acceptorAt
  cases ho : q.objects k with
  | none => simpa [ho] using Performed.stop hq
  | some o => cases o with
    | connection c => simpa [ho] using Performed.stop hq
    | acceptor x => simpa [ho] using h x ho

theorem Performed.vacant {f : Unit → Run κ Unit} (hq : q.sys = p.sys)
    (h : q.objects k = none → Performed p a ((f ()).run q)) :
    Performed p a ((Pool.vacant k >>= f).run q) := by
  unfold Pool.vacant
  cases ho : q.objects k with
  | none => simpa [ho] using h ho
  | some o => simpa [ho] using Performed.stop hq

theorem ledger_put (objects : κ → Option Object) (o : Option Object) (s s' : SysState) :
    ledger ⟨Function.update objects k o,s'⟩ =
      ⟨Function.update (ledger ⟨objects,s⟩).held k (o.bind Object.held),
        { fd | fd ∈ s'.kernel.fds }⟩ := by
  unfold ledger
  congr 1
  funext j
  by_cases hj : j = k
  · subst hj
    simp
  · simp [hj]

theorem Performed.keep {o : Option Object} {s' : SysState} {l : List SysCall}
    (ha : p.Spares a) (ho : o.bind Object.held = p.ledger.held k)
    (hfds : s'.kernel.fds = p.sys.kernel.fds) (hcalls : s'.calls = p.sys.calls++l)
    (hans : s'.answers <:+ p.sys.answers) (hown : p.Own a l)
    (hno : ∀ fd, .close fd ∉ l) :
    Performed p a (.ok (), ⟨Function.update p.objects k o,s'⟩) := by
  refine .done hcalls hown hans (.same ha hno ?_)
  rw [ledger_put p.objects o p.sys s',ho,hfds,Function.update_eq_self]
  rfl

theorem Performed.release {o : Option Object} {s' : SysState} {l : List SysCall}
    {fd : Int} (ha : p.Spares a) (hk : a.subject = k) (hheld : p.ledger.held k = some fd)
    (ho : o.bind Object.held = none)
    (hfds : s'.kernel.fds = p.sys.kernel.fds.filter (· ≠ fd))
    (hcalls : s'.calls = p.sys.calls++(l++[.close fd]))
    (hans : s'.answers <:+ p.sys.answers) (hown : p.Own a l)
    (hno : ∀ fd, .close fd ∉ l) :
    Performed p a (.ok (), ⟨Function.update p.objects k o,s'⟩) := by
  subst hk
  refine .done hcalls ?_ hans (.closed ha hheld ?_ ?_)
  · intro x hx fd' hon
    obtain hx | hx := List.mem_append.mp hx
    · exact hown x hx fd' hon
    · rw [List.mem_singleton.mp hx] at hon
      cases hon
      exact hheld
  · exact ⟨l,rfl,hno⟩
  · rw [ledger_put p.objects o p.sys s',ho,hfds]
    congr 1
    ext x
    simp [ledger]

omit [DecidableEq κ] in
theorem held_object {o : Object} (h : p.objects k = some o) : p.ledger.held k = o.held := by
  change (p.objects k).bind Object.held = o.held
  rw [h]
  rfl

omit [DecidableEq κ] in
theorem Own.nil : p.Own a [] := fun _ h => by cases h

theorem Performed.closing {m : Sys α} {o : Object} {f : α → Option Object} (ha : p.Spares a)
    (hk : a.subject = k) (ho : p.objects k = some o)
    (hclosed : o.socket = 0 →
      ∃ x, m.run p.sys = (.ok x, p.sys) ∧ (f x).bind Object.held = none)
    (hopen : o.socket ≠ 0 →
      (∃ x s', m.run p.sys = (.ok x, s') ∧ (f x).bind Object.held = none ∧
        s'.kernel.fds = p.sys.kernel.fds.filter (· ≠ o.socket) ∧
        s'.calls = p.sys.calls++[.close o.socket] ∧ s'.answers <:+ p.sys.answers) ∨
      ∃ s', m.run p.sys = (.error .cut, s') ∧ Sys.Same p.sys s') :
    Performed p a ((call m >>= fun x => put k (f x)).run p) := by
  have hheld := held_object ho
  by_cases h0 : o.socket = 0
  · obtain ⟨x,h,hf⟩ := hclosed h0
    rw [Prog.bind_ok (call_ok h)]
    rw [Object.held_of_zero h0] at hheld
    exact .keep (l := []) ha (hf.trans hheld.symm) rfl (by simp) (List.suffix_refl _)
      Own.nil (by simp)
  · rw [Object.held_of_ne h0] at hheld
    obtain ⟨x,s',h,hf,hfds,hcalls,hans⟩ | ⟨s',h,hs⟩ := hopen h0
    · rw [Prog.bind_ok (call_ok h)]
      exact .release (l := []) ha hk hheld hf hfds hcalls hans Own.nil (by simp)
    · rw [Prog.bind_error (call_error h)]
      exact .cut (l := []) (by simp [hs.calls]) Own.nil (by simp)

theorem performed_disconnect (k : κ) :
    Performed p (.disconnect k) ((exec (.disconnect k)).run p) := by
  refine .connectionAt rfl fun c hc => .closing trivial rfl hc (fun h0 => ?_) fun h0 => ?_
  · exact ⟨c,Connection.disconnect_closed (Connection.isConnected_false.mpr h0) p.sys,
      Object.held_of_zero h0⟩
  · obtain ⟨s',h,hs⟩ | h := Connection.disconnect_open (Connection.isConnected_iff.mpr h0) p.sys
    · exact Or.inl ⟨_,s',h,rfl,hs⟩
    · exact Or.inr h

theorem performed_close (k : κ) : Performed p (.close k) ((exec (.close k)).run p) := by
  refine .acceptorAt rfl fun x hx => .closing trivial rfl hx (fun h0 => ?_) fun h0 => ?_
  · exact ⟨x,Acceptor.close_closed (Acceptor.isOpen_false.mpr h0) p.sys,Object.held_of_zero h0⟩
  · obtain ⟨s',h,hs⟩ | h := Acceptor.close_open (Acceptor.isOpen_iff.mpr h0) p.sys
    · exact Or.inl ⟨_,s',h,rfl,hs⟩
    · exact Or.inr h

theorem performed_destroy (k : κ) : Performed p (.destroy k) ((exec (.destroy k)).run p) := by
  unfold exec
  rw [Prog.run_get_bind]
  cases ho : p.objects k with
  | none => exact .stop rfl
  | some o => cases o with
    | connection c =>
      refine .closing trivial rfl ho (fun h0 => ?_) fun h0 => ?_
      · exact ⟨(),Connection.destroy_closed (Connection.isConnected_false.mpr h0) p.sys,rfl⟩
      · obtain ⟨s',h,hs⟩ | h := Connection.destroy_open (Connection.isConnected_iff.mpr h0) p.sys
        · exact Or.inl ⟨_,s',h,rfl,hs⟩
        · exact Or.inr h
    | acceptor x =>
      refine .closing trivial rfl ho (fun h0 => ?_) fun h0 => ?_
      · exact ⟨(),Acceptor.destroy_closed (Acceptor.isOpen_false.mpr h0) p.sys,rfl⟩
      · obtain ⟨s',h,hs⟩ | h := Acceptor.destroy_open (Acceptor.isOpen_iff.mpr h0) p.sys
        · exact Or.inl ⟨_,s',h,rfl,hs⟩
        · exact Or.inr h

theorem constructed {o : Object} (hz : o.socket = 0) (hk : p.objects k = none) :
    ledger ⟨Function.update p.objects k (some o),p.sys⟩ = p.ledger := by
  have hheld : (some o).bind Object.held = p.ledger.held k := by
    change o.held = (p.objects k).bind Object.held
    rw [hk,Object.held_of_zero hz]
    rfl
  rw [ledger_put p.objects (some o) p.sys p.sys,hheld,Function.update_eq_self]
  rfl

theorem performed_connection (k : κ) :
    Performed p (.connection k) ((exec (.connection k)).run p) := by
  refine .vacant rfl fun hk => ?_
  refine .done (l := []) (by simp) Own.nil (List.suffix_refl _) (.same trivial (by simp) ?_)
  exact constructed rfl hk

theorem performed_acceptor (k : κ) : Performed p (.acceptor k) ((exec (.acceptor k)).run p) := by
  refine .vacant rfl fun hk => ?_
  refine .done (l := []) (by simp) Own.nil (List.suffix_refl _) (.same trivial (by simp) ?_)
  exact constructed rfl hk

/-- What the two assignments of a move make of the ledger. -/
theorem performed_move {other : κ} (hq : q.sys = p.sys) (hl : q.ledger = p.ledger)
    (ha : p.Spares a ↔ p.ledger.held k = none) : Performed p a ((move k other).run q) := by
  refine .connectionAt hq fun _ _ => .connectionAt hq fun c hc => ?_
  have hheld : (some (Object.connection c.moveFrom.1)).bind Object.held =
      p.ledger.held other := by
    rw [← hl,held_object hc]
    rfl
  change Performed p a (.ok (), ⟨Function.update (Function.update q.objects k
    (some (.connection c.moveFrom.1))) other (some (.connection c.moveFrom.2)),q.sys⟩)
  refine .done (l := []) (by simp [hq]) Own.nil (by simp [hq])
    (.moved (j := other) ha rfl ?_)
  rw [ledger_put _ _ q.sys q.sys,ledger_put q.objects _ q.sys q.sys,hheld]
  change (⟨Function.update (Function.update q.ledger.held k (p.ledger.held other)) other none,
    q.ledger.live⟩ : Ledger κ Int) = _
  rw [hl]

theorem performed_moveConstruct (k other : κ) :
    Performed p (.moveConstruct k other) ((exec (.moveConstruct k other)).run p) := by
  refine .vacant rfl fun hk => ?_
  change Performed p _ ((move k other).run
    ⟨Function.update p.objects k (some (.connection {})),p.sys⟩)
  refine performed_move rfl (constructed rfl hk) ?_
  have hheld : p.ledger.held k = none := by
    change (p.objects k).bind Object.held = none
    rw [hk]
    rfl
  exact ⟨fun _ => hheld,fun _ => trivial⟩

omit [DecidableEq κ] in
theorem ledger_same {s' : SysState} (hfds : s'.kernel.fds = p.sys.kernel.fds) :
    ledger ⟨p.objects,s'⟩ = p.ledger := by
  unfold ledger
  rw [hfds]

omit [DecidableEq κ] in
theorem Own.sends {calls : List SysCall} {fd : Int}
    (hheld : p.ledger.held a.subject = some fd)
    (h : ∀ x ∈ calls, ∃ offered flags n, x = .send fd offered flags n) : p.Own a calls := by
  intro x hx fd' hon
  obtain ⟨offered,flags,n,rfl⟩ := h x hx
  cases hon
  exact hheld

omit [DecidableEq κ] in
theorem not_close {calls : List SysCall} {fd : Int}
    (h : ∀ x ∈ calls, ∃ offered flags n, x = .send fd offered flags n) (fd' : Int) :
    .close fd' ∉ calls := by
  intro hmem
  obtain ⟨offered,flags,n,he⟩ := h _ hmem
  cases he

theorem performed_send (k : κ) (data : Buffer) (ec : ErrorCode) (flags : Nat) :
    Performed p (.send k data ec flags) ((exec (.send k data ec flags)).run p) := by
  refine .connectionAt rfl fun c hc => ?_
  have hheld := held_object hc
  by_cases hg : c.isConnected = true ∧ data.size ≠ 0
  · have h0 : (Object.connection c).socket ≠ 0 := Connection.isConnected_iff.mp hg.1
    rw [Object.held_of_ne h0] at hheld
    obtain ⟨sendFlags,hs⟩ := Connection.send_open ec flags hg.1 hg.2 p.sys
    generalize hr : (c.send data ec flags).run p.sys = r at hs
    cases hs with
    | @sent calls s' h hfds hcalls hans =>
      rw [Prog.bind_ok (call_ok hr)]
      refine .done hcalls (.sends hheld h.sends) hans (.same trivial (not_close h.sends) ?_)
      exact ledger_same hfds
    | @failed calls m s' e h hm hfds hcalls hans =>
      rw [Prog.bind_ok (call_ok hr)]
      have hsends : ∀ x ∈ calls++[.send c.socket (data.data.drop m) sendFlags (-1)],
          ∃ offered flags n, x = .send c.socket offered flags n := by
        intro x hx
        obtain hx | hx := List.mem_append.mp hx
        · exact h.sends x hx
        · exact ⟨_,_,_,List.mem_singleton.mp hx⟩
      rw [List.append_assoc] at hcalls
      refine .done hcalls (.sends hheld hsends) hans (.same trivial (not_close hsends) ?_)
      exact ledger_same hfds
    | @cut calls m s' h hm hfds hcalls hans =>
      rw [Prog.bind_error (call_error hr)]
      exact .cut hcalls (.sends hheld h.sends) (not_close h.sends)
  · have hguard := Connection.send_guard ec flags (Connection.guard_of_not hg) p.sys
    rw [Prog.bind_ok (call_ok hguard)]
    exact .done (l := []) (by simp) Own.nil (List.suffix_refl _)
      (.same trivial (by simp) rfl)

theorem performed_receive (k : κ) (size : Nat) (ec : ErrorCode) (flags : Nat) :
    Performed p (.receive k size ec flags) ((exec (.receive k size ec flags)).run p) := by
  refine .connectionAt rfl fun c hc => ?_
  have hheld := held_object hc
  by_cases hg : c.isConnected = true ∧ size ≠ 0
  · have h0 : (Object.connection c).socket ≠ 0 := Connection.isConnected_iff.mp hg.1
    have hkept : (some (Object.connection c)).bind Object.held = p.ledger.held k := hheld.symm
    rw [Object.held_of_ne h0] at hheld
    obtain ⟨recvFlags,hs⟩ := Connection.receive_open ec flags hg.1 hg.2 p.sys
    have hown : ∀ n bytes, p.Own (.receive k size ec flags)
        [.recv c.socket size recvFlags n bytes] := by
      intro n bytes x hx fd hon
      rw [List.mem_singleton.mp hx] at hon
      cases hon
      exact hheld
    generalize hr : (c.receive size ec flags).run p.sys = r at hs
    cases hs with
    | data hne hsize hmax hfds hcalls hans =>
      rw [Prog.bind_ok (call_ok hr)]
      exact .keep trivial hkept hfds hcalls hans (hown _ _) (by simp)
    | failed e hfds hcalls hans =>
      rw [Prog.bind_ok (call_ok hr)]
      exact .keep trivial hkept hfds hcalls hans (hown _ _) (by simp)
    | closed e hfds hcalls hans =>
      rw [Prog.bind_ok (call_ok hr)]
      exact .release (l := [_]) trivial rfl hheld rfl hfds hcalls hans (hown _ _) (by simp)
    | closing hfds hcalls hans =>
      rw [Prog.bind_error (call_error hr)]
      exact .cut hcalls (hown _ _) (by simp)
    | cut hs =>
      rw [Prog.bind_error (call_error hr)]
      exact .cut (l := []) (by simp [hs.calls]) Own.nil (by simp)
  · have hguard := Connection.receive_guard ec flags (Connection.guard_of_not hg) p.sys
    rw [Prog.bind_ok (call_ok hguard)]
    exact .keep (l := []) trivial hheld.symm rfl (by simp) (List.suffix_refl _) Own.nil
      (by simp)

theorem Performed.creating {m : Sys Int} {failed : Sys α} {f : Int → Sys α} {g : α → Object}
    {o : Object} (ho : p.objects k = some o)
    (ha : p.Spares a ↔ p.ledger.held k = none ∨ p.creates a = none)
    (hm : SocketOps.Found m p.sys p.sys (p.creates a)) (htidy : p.Tidy a → Single m p.sys)
    (hfailed : ∀ s, ∃ x, failed.run s = (.ok x, s) ∧ g x = o)
    (hf : ∀ fd s, (∃ x s', (f fd).run s = (.ok x, s') ∧ (g x).socket = fd ∧ Sys.Same s s') ∨
      ∃ e s', (f fd).run s = (.error e, s') ∧ Sys.Same s s') :
    Performed p a ((call (m >>= fun fd => if fd = 0 then failed else f fd) >>= fun x =>
      put k (some (g x))).run p) := by
  have hlive : ∀ s₁ : SysState, Extends p.sys s₁ → ∀ fd, fd ∈ s₁.kernel.fds →
      fd ∉ p.sys.kernel.fds → fd ∈ p.sys.answers.filterMap Answer.descriptor := by
    intro s₁ he fd hfd hnew
    exact List.mem_filterMap.mpr ⟨_,(he.new fd hfd).resolve_left hnew,rfl⟩
  obtain ⟨fd,s₁,h,he,ho'⟩ | ⟨e,s₁,h,he,-⟩ := hm
  · have hsingle : p.Tidy a → ∀ x ∈ s₁.kernel.fds, x ∈ p.sys.kernel.fds ∨ x = fd := by
      intro ht x hx
      have hone := htidy ht x
      rw [h] at hone
      refine (hone hx).imp_right fun hr => ?_
      cases hr
      rfl
    by_cases hz : fd = 0
    · obtain ⟨x,hx,hg⟩ := hfailed s₁
      have hrun : (m >>= fun fd => if fd = 0 then failed else f fd).run p.sys = (.ok x, s₁) := by
        rw [Prog.bind_ok h,if_pos hz,hx]
      rw [Prog.bind_ok (call_ok hrun),hg]
      have hledger : ledger ⟨Function.update p.objects k (some o),s₁⟩ =
          ⟨p.ledger.held,{ fd | fd ∈ s₁.kernel.fds }⟩ := by
        have hheld : (some o).bind Object.held = p.ledger.held k := (held_object ho).symm
        rw [ledger_put p.objects (some o) p.sys s₁,hheld,Function.update_eq_self]
      refine .done (l := []) (by simp [he.calls]) Own.nil he.answers ?_
      obtain ⟨-,hnew,hmem⟩ | ⟨-,hnone⟩ := ho'
      · rw [hz] at hnew hmem
        exact .zero (hlive s₁ he 0 hmem hnew) (by simp) he.fds hledger
      · refine .missed (ha.mpr (Or.inr hnone)) rfl he.fds (fun x hx hnew => ?_) hledger
        exact ⟨hlive s₁ he x hx hnew,fun ht => ((hsingle ht x hx).resolve_left hnew).trans hz⟩
    · obtain ⟨hsome,hnew,hmem⟩ := ho'.resolve_right fun h => hz h.1
      obtain ⟨x,s₂,hx,hsock,hs⟩ | ⟨e,s₂,hx,hs⟩ := hf fd s₁
      · have hrun : (m >>= fun fd => if fd = 0 then failed else f fd).run p.sys =
            (.ok x, s₂) := by
          rw [Prog.bind_ok h,if_neg hz,hx]
        rw [Prog.bind_ok (call_ok hrun)]
        have he' := he.trans (.of_same hs)
        refine .done (l := []) (by simp [he'.calls]) Own.nil he'.answers ?_
        have hledger : ledger ⟨Function.update p.objects k (some (g x)),s₂⟩ =
            ⟨Function.update p.ledger.held k (some fd),{ fd | fd ∈ s₂.kernel.fds }⟩ := by
          have hheld : (some (g x)).bind Object.held = some fd := by
            rw [← hsock] at hz ⊢
            exact Object.held_of_ne hz
          rw [ledger_put p.objects (some (g x)) p.sys s₂,hheld]
        have hspares : p.Spares a ↔ p.ledger.held k = none := by
          rw [ha,hsome]
          simp
        have hmem' : fd ∈ s₂.kernel.fds := by
          rw [hs.fds]
          exact hmem
        refine .created hspares (by simp) hnew hmem' he'.fds (fun ht x hx => ?_) hledger
        have hx : x ∈ s₁.kernel.fds := by
          rw [← hs.fds]
          exact hx
        exact (hsingle ht x hx).symm
      · have hrun : (m >>= fun fd => if fd = 0 then failed else f fd).run p.sys =
            (.error e, s₂) := by
          rw [Prog.bind_ok h,if_neg hz,hx]
        rw [Prog.bind_error (call_error hrun)]
        exact .cut (l := []) (by simp [(he.trans (.of_same hs)).calls]) Own.nil (by simp)
  · rw [Prog.bind_error (call_error (Prog.bind_error h))]
    exact .cut (l := []) (by simp [he.calls]) Own.nil (by simp)

theorem performed_connect (k : κ) (es : List Endpoint) (ec : ErrorCode) :
    Performed p (.connect k es ec) ((exec (.connect k es ec)).run p) := by
  refine .connectionAt rfl fun c hc => ?_
  cases es with
  | nil =>
    have h : (c.connect [] ec).run p.sys = (.ok (c, .assign 1), p.sys) := rfl
    rw [Prog.bind_ok (call_ok h)]
    exact .keep (l := []) (Or.inr (by simp [creates,opened])) (held_object hc).symm rfl
      (by simp) (List.suffix_refl _) Own.nil (by simp)
  | cons e es =>
    refine .creating (g := fun (x : Connection × ErrorCode) => .connection x.1) hc Iff.rfl
      (SocketOps.createConnectedSocket_found (e::es) p.sys) id (fun s => ⟨_,rfl,rfl⟩)
      fun fd s => ?_
    obtain ⟨l,s₁,h₁,hs₁⟩ | ⟨s₁,h₁,hs₁⟩ := SocketOps.getEndpoint_cases fd true s
    · obtain ⟨r,s₂,h₂,hs₂⟩ | ⟨s₂,h₂,hs₂⟩ := SocketOps.getEndpoint_cases fd false s₁
      · exact Or.inl ⟨_,s₂,(Prog.bind_ok h₁).trans (Prog.bind_ok h₂),rfl,hs₁.trans hs₂⟩
      · exact Or.inr ⟨_,s₂,(Prog.bind_ok h₁).trans (Prog.bind_error h₂),hs₁.trans hs₂⟩
    · exact Or.inr ⟨_,s₁,Prog.bind_error h₁,hs₁⟩

theorem performed_openOn (k : κ) (es : List Endpoint) (ec : ErrorCode) (reuseAddr : Bool) :
    Performed p (.openOn k es ec reuseAddr) ((exec (.openOn k es ec reuseAddr)).run p) := by
  refine .acceptorAt rfl fun x hx => ?_
  cases es with
  | nil =>
    have h : (x.openOn [] ec reuseAddr).run p.sys = (.ok (x, .assign 1), p.sys) := rfl
    rw [Prog.bind_ok (call_ok h)]
    exact .keep (l := []) (Or.inr (by simp [creates,opened])) (held_object hx).symm rfl
      (by simp) (List.suffix_refl _) Own.nil (by simp)
  | cons e es =>
    refine .creating (g := fun (x : Acceptor × ErrorCode) => .acceptor x.1) hx Iff.rfl
      (SocketOps.createListeningSocket_found _ reuseAddr (e::es) p.sys) id
      (fun s => ⟨_,rfl,rfl⟩) fun fd s => ?_
    obtain ⟨l,s₁,h₁,hs₁⟩ | ⟨s₁,h₁,hs₁⟩ := SocketOps.getEndpoint_cases fd true s
    · exact Or.inl ⟨_,s₁,Prog.bind_ok h₁,rfl,hs₁⟩
    · exact Or.inr ⟨_,s₁,Prog.bind_error h₁,hs₁⟩

theorem performed_accept (k new : κ) (ec : ErrorCode) :
    Performed p (.accept k new ec) ((exec (.accept k new ec)).run p) := by
  refine .vacant rfl fun hv => .acceptorAt rfl fun x hx => ?_
  have hnone : p.ledger.held new = none := by
    change (p.objects new).bind Object.held = none
    rw [hv]
    rfl
  have hheld := held_object hx
  by_cases ho : x.isOpen = true
  · have h0 : (Object.acceptor x).socket ≠ 0 := Acceptor.isOpen_iff.mp ho
    rw [Object.held_of_ne h0] at hheld
    have hown : ∀ n, p.Own (.accept k new ec) [.accept x.socket n] := by
      intro n y hy fd hon
      rw [List.mem_singleton.mp hy] at hon
      cases hon
      exact hheld
    have ha := Acceptor.accept_open ec ho p.sys
    generalize hr : (x.accept ec).run p.sys = r at ha
    cases ha with
    | @accepted fd addr rest conn s' hnew hconn hfds hcalls hans hrest =>
      rw [Prog.bind_ok (call_ok hr)]
      have hsuf : s'.answers <:+ p.sys.answers := by
        rw [hans]
        exact hrest.trans (List.suffix_cons _ rest)
      have hlive : p.sys.kernel.fds ⊆ s'.kernel.fds := by
        rw [hfds]
        exact List.subset_cons_self fd _
      have hmem : fd ∈ s'.kernel.fds := by
        rw [hfds]
        exact List.mem_cons_self
      refine .done hcalls (hown fd) hsuf ?_
      by_cases hz : (Object.connection conn).socket = 0
      · have hfd : fd = 0 := hconn.symm.trans hz
        have hledger : ledger ⟨Function.update p.objects new (some (.connection conn)),s'⟩ =
            ⟨p.ledger.held,{ fd | fd ∈ s'.kernel.fds }⟩ := by
          have hkept : (some (Object.connection conn)).bind Object.held = p.ledger.held new :=
            (Object.held_of_zero hz).trans hnone.symm
          rw [ledger_put p.objects _ p.sys s',hkept,Function.update_eq_self]
        refine .zero ?_ (by simp) hlive hledger
        rw [hans,← hfd]
        exact List.mem_filterMap.mpr ⟨_,List.mem_cons_self,rfl⟩
      · have hledger : ledger ⟨Function.update p.objects new (some (.connection conn)),s'⟩ =
            ⟨Function.update p.ledger.held new (some fd),{ fd | fd ∈ s'.kernel.fds }⟩ := by
          have hkept : (some (Object.connection conn)).bind Object.held = some fd := by
            rw [← hconn]
            exact Object.held_of_ne hz
          rw [ledger_put p.objects _ p.sys s',hkept]
        refine .created ⟨fun _ => hnone,fun _ => trivial⟩ (by simp) hnew.2 hmem hlive
          (fun _ y hy => ?_) hledger
        have hy : y ∈ s'.kernel.fds := hy
        rw [hfds] at hy
        exact List.mem_cons.mp hy
    | failed e hfds hcalls hans =>
      rw [Prog.bind_ok (call_ok hr)]
      exact .keep trivial hnone.symm hfds hcalls hans (hown _) (by simp)
    | naming hnew hcalls hans =>
      rw [Prog.bind_error (call_error hr)]
      exact .cut hcalls (hown _) (by simp)
    | cut hs =>
      rw [Prog.bind_error (call_error hr)]
      exact .cut (l := []) (by simp [hs.calls]) Own.nil (by simp)
  · have hclosed : x.isOpen = false := by simpa using ho
    rw [Prog.bind_ok (call_ok (Acceptor.accept_closed ec hclosed p.sys))]
    exact .keep (l := []) trivial hnone.symm rfl (by simp) (List.suffix_refl _) Own.nil
      (by simp)

/-- Every operation, whatever the kernel answers. -/
theorem exec_performed (p : Pool κ) (a : Act κ) : Performed p a ((exec a).run p) := by
  cases a with
  | connection k => exact performed_connection k
  | acceptor k => exact performed_acceptor k
  | connect k es ec => exact performed_connect k es ec
  | openOn k es ec reuseAddr => exact performed_openOn k es ec reuseAddr
  | accept k new ec => exact performed_accept k new ec
  | moveConstruct k other => exact performed_moveConstruct k other
  | moveAssign k other => exact performed_move rfl rfl Iff.rfl
  | send k data ec flags => exact performed_send k data ec flags
  | receive k size ec flags => exact performed_receive k size ec flags
  | disconnect k => exact performed_disconnect k
  | close k => exact performed_close k
  | destroy k => exact performed_destroy k

end Lemmas
end Pool
end Yonaa
