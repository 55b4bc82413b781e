import Yonaa.Creation

/-! The overloads that throw. Each of them runs the overload that reports through `ec` with
a fresh error_code and throws that code if it was set. -/
namespace Yonaa

/-- `if (ec) throw ec;` in front of the return. -/
def orThrow {α : Type} (a : α) (ec : ErrorCode) : Except ErrorCode α :=
  if ec.isSet then .error ec else .ok a

def resolveThrowing (hostname service : String) : Sys (Except ErrorCode (List Endpoint)) := do
  let (result, ec) ← resolve hostname service .clear
  return orThrow result ec

namespace Connection

def connectThrowing (c : Connection) (remoteEndpoints : List Endpoint) :
    Sys (Connection × Except ErrorCode Unit) := do
  let (c', ec) ← c.connect remoteEndpoints .clear
  return (c', orThrow () ec)

def sendThrowing (c : Connection) (data : Buffer) (flags : Nat := 0) :
    Sys (Except ErrorCode Unit) := do
  let ec ← c.send data .clear flags
  return orThrow () ec

/-- The overload without a size passes `maxBufferSize`. -/
def receiveThrowing (c : Connection) (size : Nat := maxBufferSize) (flags : Nat := 0) :
    Sys (Connection × Except ErrorCode Buffer) := do
  let (data, c', ec) ← c.receive size .clear flags
  return (c', orThrow data ec)

end Connection

namespace Acceptor

def openOnThrowing (a : Acceptor) (localEndpoints : List Endpoint) (reuseAddr : Bool) :
    Sys (Acceptor × Except ErrorCode Unit) := do
  let (a', ec) ← a.openOn localEndpoints .clear reuseAddr
  return (a', orThrow () ec)

def acceptThrowing (a : Acceptor) : Sys (Except ErrorCode Connection) := do
  let (conn, ec) ← a.accept .clear
  return orThrow conn ec

end Acceptor

/-- The operations with two overloads, with their object and their arguments. -/
inductive Operation where
  | resolve (hostname service : String)
  | connect (c : Connection) (remoteEndpoints : List Endpoint)
  | send (c : Connection) (data : Buffer) (flags : Nat)
  | receive (c : Connection) (size flags : Nat)
  | openOn (a : Acceptor) (localEndpoints : List Endpoint) (reuseAddr : Bool)
  | accept (a : Acceptor)

namespace Operation

abbrev Object : Operation → Type
  | .resolve _ _ => Unit
  | .connect _ _ | .send _ _ _ | .receive _ _ _ => Connection
  | .openOn _ _ _ | .accept _ => Acceptor

abbrev Value : Operation → Type
  | .resolve _ _ => List Endpoint
  | .receive _ _ _ => Buffer
  | .accept _ => Connection
  | .connect _ _ | .send _ _ _ | .openOn _ _ _ => Unit

def reporting : (o : Operation) → ErrorCode → Sys ((o.Object × o.Value) × ErrorCode)
  | .resolve hostname service, ec => do
    let (result, ec) ← Yonaa.resolve hostname service ec
    return (((), result), ec)
  | .connect c remoteEndpoints, ec => do
    let (c', ec) ← c.connect remoteEndpoints ec
    return ((c', ()), ec)
  | .send c data flags, ec => do
    let ec ← c.send data ec flags
    return ((c, ()), ec)
  | .receive c size flags, ec => do
    let (data, c', ec) ← c.receive size ec flags
    return ((c', data), ec)
  | .openOn a localEndpoints reuseAddr, ec => do
    let (a', ec) ← a.openOn localEndpoints ec reuseAddr
    return ((a', ()), ec)
  | .accept a, ec => do
    let (conn, ec) ← a.accept ec
    return ((a, conn), ec)

def throwing : (o : Operation) → Sys (o.Object × Except ErrorCode o.Value)
  | .resolve hostname service => do return ((), ← resolveThrowing hostname service)
  | .connect c remoteEndpoints => c.connectThrowing remoteEndpoints
  | .send c data flags => do return (c, ← c.sendThrowing data flags)
  | .receive c size flags => c.receiveThrowing size flags
  | .openOn a localEndpoints reuseAddr => a.openOnThrowing localEndpoints reuseAddr
  | .accept a => do return (a, ← a.acceptThrowing)

/-- The two overloads, from one state with the same answers of the kernel: one reports a
code if and only if the other throws, and then the same one; the object is left in the
same state, and without an error the value is the same. A run that does not reach the
return ends in both for the same reason. -/
def Agrees (o : Operation) (ec : ErrorCode) (s : SysState) : Prop :=
  match (o.reporting ec).run s, o.throwing.run s with
  | (.ok ((obj, v), ec'), t), (.ok (obj', r), t') =>
    (ec'.isSet = true ↔ ∃ e, r = .error e) ∧ (∀ e, r = .error e → ec' = e) ∧
      obj = obj' ∧ t = t' ∧ (ec'.isSet = false → r = .ok v)
  | (.error h, t), (.error h', t') => h = h' ∧ t = t'
  | _, _ => False

end Operation

/-! When an operation succeeds, by the object, the arguments and the kernel's answers. -/

/-- A socket other than 0, which the code takes for "none", and its n endpoint queries. -/
def usable (n : Nat) : Option (Int × List Answer) → Bool
  | some (fd, rest) => fd != 0 && named n rest
  | none => false

def accepted : Nat → List Answer → Bool
  | 0, _ => true
  | _+1, [] => false
  | size+1, a::rest => match a with
    | .send (.ok n) =>
      decide (1 ≤ n ∧ n ≤ size+1 ∧ n ≤ maxTransfer) && accepted (size+1-n) rest
    | _ => false

namespace Operation

def succeeds (s : SysState) : Operation → Bool
  | .resolve _ _ => match s.answers with
    | .getaddrinfo (some infos)::_ => !infos.isEmpty
    | _ => false
  | .connect _ remoteEndpoints =>
    usable 2 ((opened [Stage.connect] s.kernel.fds remoteEndpoints s.answers).map Prod.snd)
  | .send c data _ => c.isConnected && data.size != 0 && accepted data.size s.answers
  | .receive c size _ => c.isConnected && match s.answers with
    | .recv (.ok bytes)::_ =>
      decide (bytes ≠ [] ∧ bytes.length ≤ size ∧ bytes.length ≤ maxTransfer)
    | _ => false
  | .openOn _ localEndpoints reuseAddr =>
    usable 1 ((opened (listening Acceptor.backlogSize reuseAddr) s.kernel.fds localEndpoints
      s.answers).map Prod.snd)
  | .accept a => a.isOpen && match s.answers with
    | .accept (.ok fd) _::rest => decide (0 ≤ fd ∧ fd ∉ s.kernel.fds) && named 1 rest
    | _ => false

end Operation

/-! An operation leaves the code it is given, or what it does does not depend on it. -/

/-- From s, m does the same whatever code it is given. -/
def Ignores {γ : Type} (m : ErrorCode → Sys γ) (s : SysState) : Prop :=
  ∃ r, ∀ ec, (m ec).run s = r

/-- On success m returns the code it was given, with a result that does not depend on it;
everything else does not depend on the code. -/
def Outcome {β γ : Type} (ret : β → ErrorCode → γ) (m : ErrorCode → Sys γ) (s : SysState)
    (success : Bool) : Prop :=
  if success then ∃ x t, ∀ ec, (m ec).run s = (.ok (ret x ec), t) else Ignores m s

namespace Outcome
variable {β β' γ δ : Type} {ret : β → ErrorCode → γ} {p : Sys δ} {m : ErrorCode → Sys γ}
  {k : δ → ErrorCode → Sys γ} {s s' : SysState} {b : Bool}

theorem pure (x : β) : Outcome ret (fun ec => pure (ret x ec)) s true :=
  ⟨x,s,fun _ => rfl⟩

theorem ignores {m : Sys γ} : Outcome ret (fun _ => m) s false :=
  ⟨m.run s,fun _ => rfl⟩

theorem bind {x : δ} (h : p.run s = (.ok x, s')) (hk : Outcome ret (k x) s' b) :
    Outcome ret (fun ec => p >>= fun x => k x ec) s b := by
  cases b with
  | true =>
    obtain ⟨y,t,hy⟩ := hk
    exact ⟨y,t,fun ec => by rw [Prog.bind_ok h,hy]⟩
  | false =>
    obtain ⟨r,hr⟩ := hk
    exact ⟨r,fun ec => by rw [Prog.bind_ok h,hr]⟩

theorem halt {e : Halt} (h : p.run s = (.error e, s')) :
    Outcome ret (fun ec => p >>= fun x => k x ec) s false :=
  ⟨(.error e, s'),fun _ => Prog.bind_error h⟩

theorem assoc {ε : Type} {q : δ → Sys ε} {k : ε → ErrorCode → Sys γ}
    (h : Outcome ret (fun ec => p >>= fun x => q x >>= fun y => k y ec) s b) :
    Outcome ret (fun ec => (p >>= q) >>= fun y => k y ec) s b := by
  simpa only [Outcome,Ignores,Prog.run_bind_bind] using h

theorem map {ret' : β' → ErrorCode → δ} {g : γ → δ} {f : β → β'} (h : Outcome ret m s b)
    (hg : ∀ x ec, g (ret x ec) = ret' (f x) ec) :
    Outcome ret' (fun ec => m ec >>= fun y => Pure.pure (g y)) s b := by
  cases b with
  | true =>
    obtain ⟨x,t,hx⟩ := h
    refine ⟨f x,t,fun ec => ?_⟩
    rw [Prog.bind_ok (hx ec),hg]
    rfl
  | false =>
    obtain ⟨r,hr⟩ := h
    exact ⟨_,fun ec => by rw [Prog.run_bind,hr ec]⟩

end Outcome

theorem Outcome.endpoint {β γ : Type} {ret : β → ErrorCode → γ}
    {k : Endpoint → ErrorCode → Sys γ} {n fd : _} (localSocket : Bool) {s : SysState}
    (hk : ∀ e s', Outcome ret (k e) s' (named n s'.answers)) :
    Outcome ret (fun ec => SocketOps.getEndpoint fd localSocket >>= fun e => k e ec) s
      (named (n+1) s.answers) := by
  obtain ⟨e,s',h,-,hn⟩ | ⟨h',s',h,-,hn⟩ := SocketOps.getEndpoint_named fd localSocket s
  · rw [hn n]
    exact .bind h (hk e s')
  · rw [hn n]
    exact .halt h

theorem Outcome.created {β γ : Type} {ret : β → ErrorCode → γ} {m : Sys Int}
    {failed : Sys γ} {k : Int → ErrorCode → Sys γ} {n : Nat} {s : SysState}
    {o : Option (Int × List Answer)} (h : SocketOps.Found m s s o)
    (hk : ∀ fd s', Outcome ret (k fd) s' (named n s'.answers)) :
    Outcome ret (fun ec => m >>= fun fd => if fd = 0 then failed else k fd ec) s
      (usable n o) := by
  obtain ⟨fd,s',h,-,ho⟩ | ⟨e,s',h,-,rfl⟩ := h
  · by_cases hz : fd = 0
    · have hb : usable n o = false := by
        obtain ⟨rfl,-⟩ | ⟨-,rfl⟩ := ho
        · simp [usable,hz]
        · rfl
      rw [hb]
      refine .bind h ?_
      simp only [if_pos hz]
      exact .ignores
    · obtain ⟨rfl,-⟩ | ⟨hz',-⟩ := ho
      · refine .bind h ?_
        simp only [if_neg hz,usable,bne_iff_ne.mpr hz,Bool.true_and]
        exact hk fd s'
      · exact absurd hz' hz
  · exact .halt h

/-! The six operations. -/

theorem resolve_outcome (hostname service : String) (s : SysState) :
    Outcome Prod.mk (resolve hostname service) s
      (Operation.succeeds s (.resolve hostname service)) := by
  obtain ⟨k,answers,calls⟩ := s
  cases answers with
  | nil => exact ⟨_,fun _ => rfl⟩
  | cons a rest => cases a with
    | getaddrinfo r => cases r with
      | none => exact ⟨_,fun _ => rfl⟩
      | some infos => cases infos with
        | nil => exact ⟨_,fun _ => rfl⟩
        | cons ai infos => exact ⟨_,_,fun _ => rfl⟩
    | _ => exact ⟨_,fun _ => rfl⟩

theorem Connection.connect_outcome (c : Connection) (es : List Endpoint) (s : SysState) :
    Outcome Prod.mk (c.connect es) s (Operation.succeeds s (.connect c es)) := by
  cases es with
  | nil => exact .ignores
  | cons e es =>
    refine .created (SocketOps.createConnectedSocket_found (e::es) s) fun fd s₁ => ?_
    refine .endpoint true fun localEndpoint s₂ => .endpoint false fun remoteEndpoint s₃ => ?_
    exact .pure _

theorem Acceptor.openOn_outcome (a : Acceptor) (es : List Endpoint) (reuseAddr : Bool)
    (s : SysState) : Outcome Prod.mk (a.openOn es · reuseAddr) s
      (Operation.succeeds s (.openOn a es reuseAddr)) := by
  cases es with
  | nil => exact .ignores
  | cons e es =>
    refine .created (SocketOps.createListeningSocket_found _ reuseAddr (e::es) s)
      fun fd s₁ => ?_
    exact .endpoint true fun localEndpoint s₂ => .pure _

theorem Acceptor.accept_outcome (a : Acceptor) (s : SysState) :
    Outcome Prod.mk a.accept s (Operation.succeeds s (.accept a)) := by
  by_cases ho : a.isOpen = true
  · have hm : a.accept = fun ec => Sys.accept a.socket >>= fun x =>
        if x.1 = -1 then Sys.errno >>= fun e => pure ({}, .assign e)
        else Connection.fromNativeSocket x.1
          (Endpoint.fromNativeAddress a.localEndpoint.protocol x.2) >>= fun conn =>
            pure (conn, ec) := by
      funext ec
      simp only [accept,ho,Bool.not_true,Bool.false_eq_true,if_false]
    simp only [Operation.succeeds,ho,Bool.true_and,hm]
    obtain ⟨k,answers,calls⟩ := s
    cases answers with
    | nil => exact ⟨_,fun _ => rfl⟩
    | cons x rest => cases x with
      | accept r addr => cases r with
        | error e => exact .bind (x := (-1,addr)) rfl .ignores
        | ok fd =>
          have hrun : (Sys.accept a.socket).run ⟨k,.accept (.ok fd) addr::rest,calls⟩ =
            (Sys.fresh (.ok fd) >>= fun result => Sys.record (.accept a.socket result) >>=
              fun _ => pure (result, addr)).run ⟨k,rest,calls⟩ := rfl
          by_cases hf : 0 ≤ fd ∧ fd ∉ k.fds
          · rw [Prog.bind_ok (Sys.fresh_new (s := ⟨k,rest,calls⟩) hf)] at hrun
            have hne : fd ≠ -1 := by omega
            simp only [hf,not_false_eq_true,and_self,decide_true,Bool.true_and]
            refine .bind hrun ?_
            simp only [if_neg hne]
            exact .assoc (.endpoint true fun localEndpoint s' => .pure _)
          · rw [Prog.bind_error (Sys.fresh_refused (s := ⟨k,rest,calls⟩) hf)] at hrun
            simp only [decide_eq_false hf,Bool.false_and]
            exact .halt hrun
      | _ => exact ⟨_,fun _ => rfl⟩
  · have hm : a.accept = fun _ => pure ({}, .assign 1) := by
      funext ec
      simp only [accept,ho,Bool.not_false,if_true]
    simp only [Operation.succeeds,ho,Bool.false_and,hm]
    exact .ignores

theorem Connection.receive_outcome (c : Connection) (size flags : Nat) (s : SysState) :
    Outcome (fun (x : Buffer × Connection) ec => (x.1, x.2, ec)) (c.receive size · flags) s
      (Operation.succeeds s (.receive c size flags)) := by
  by_cases hc : c.isConnected = true ∧ size ≠ 0
  · have hg : (!c.isConnected || size == 0) = false := by simp [hc.1,hc.2]
    obtain ⟨recvFlags,hm⟩ : ∃ recvFlags, (c.receive size · flags) = fun ec =>
        Sys.recv c.socket size recvFlags >>= fun x =>
          if toInt x.1 = 0 then c.disconnect >>= fun c' => Sys.errno >>= fun e =>
            pure ({}, c', .assign e)
          else if toInt x.1 = -1 then Sys.errno >>= fun e => pure ({}, c, .assign e)
          else pure (((Buffer.ofSize size).overwrite x.2).resize (toInt x.1).toNat, c, ec) :=
      ⟨_,funext fun ec => by simp only [receive,hg,Bool.false_eq_true,if_false]; rfl⟩
    simp only [Operation.succeeds,hc.1,Bool.true_and,hm]
    obtain ⟨k,answers,calls⟩ := s
    cases answers with
    | nil => exact ⟨_,fun _ => rfl⟩
    | cons a rest => cases a with
      | recv r => cases r with
        | error e => exact .bind (x := (-1,[])) rfl .ignores
        | ok bytes =>
          by_cases hb : bytes.length ≤ size ∧ bytes.length ≤ maxTransfer
          · have hrun := Sys.recv_answered c.socket recvFlags
              (s := ⟨k,.recv (.ok bytes)::rest,calls⟩) rfl hb
            by_cases hz : bytes = []
            · subst hz
              exact .bind hrun .ignores
            · have hpos : 0 < bytes.length := List.length_pos_of_ne_nil hz
              simp only [ne_eq,hz,not_false_eq_true,hb,and_self,decide_true]
              refine .bind hrun ?_
              have h0 : ¬(bytes.length : Int) = 0 := by omega
              have h1 : ¬(bytes.length : Int) = -1 := by omega
              simp only [toInt_of_le hb.2,if_neg h0,if_neg h1]
              exact .pure (_, c)
          · have hrun := Sys.recv_refused c.socket recvFlags
              (s := ⟨k,.recv (.ok bytes)::rest,calls⟩) rfl hb
            have hno : ¬(bytes ≠ [] ∧ bytes.length ≤ size ∧ bytes.length ≤ maxTransfer) :=
              fun h => hb h.2
            simp only [decide_eq_false hno]
            exact .halt hrun
      | _ => exact ⟨_,fun _ => rfl⟩
  · have hg : (!c.isConnected || size == 0) = true := by
      by_cases h : c.isConnected = true
      · simpa [h] using fun hs => hc ⟨h,hs⟩
      · simp [h]
    have hb : Operation.succeeds s (.receive c size flags) = false := by
      by_cases h : c.isConnected = true
      · have hs : size = 0 := by simpa [h] using hg
        subst hs
        simp only [Operation.succeeds,h,Bool.true_and]
        split
        next bytes rest =>
          refine decide_eq_false fun hb => hb.1 ?_
          exact List.length_eq_zero_iff.mp (by omega)
        next => rfl
      · simp [Operation.succeeds,h]
    simp only [receive,hg,if_true,hb]
    exact .ignores

theorem Connection.sendLoop_outcome (fd : Int) (data : Buffer) (flags fuel n : Nat)
    (hn : n ≤ data.size) (hf : data.size ≤ n+fuel) (s : SysState) :
    Outcome (fun _ : Unit => id) (sendLoop fd data flags · fuel n) s
      (accepted (data.size-n) s.answers) := by
  have hsize : data.size < 2^64 := data.size_lt
  induction fuel generalizing n s with
  | zero =>
    have he : n = data.size := by omega
    simp only [he,sendLoop,Nat.lt_irrefl,if_false,Nat.sub_self,accepted]
    exact .pure ()
  | succ fuel ih =>
    by_cases hlt : n < data.size
    · simp only [sendLoop,if_pos hlt]
      obtain ⟨m,hm⟩ : ∃ m, data.size-n = m+1 := ⟨data.size-n-1,by omega⟩
      rw [hm]
      obtain ⟨k,answers,calls⟩ := s
      cases answers with
      | nil => exact ⟨_,fun _ => rfl⟩
      | cons a rest => cases a with
        | send r => cases r with
          | error e => exact .bind (x := -1) rfl .ignores
          | ok j =>
            have hlen : (data.data.drop n).length = m+1 := by
              rw [List.length_drop,← hm]
              rfl
            by_cases hj : 1 ≤ j ∧ j ≤ m+1 ∧ j ≤ maxTransfer
            · have hrun := Sys.send_answered fd flags (data.data.drop n)
                (s := ⟨k,.send (.ok j)::rest,calls⟩) rfl (hlen ▸ hj)
              refine .bind hrun ?_
              have h1 : ¬(j : Int) = -1 := by omega
              have hsum : n+j < 2^64 := by omega
              simp only [toInt_of_le hj.2.2,if_neg h1,addSize_eq hsum]
              have h := ih (n+j) (by omega) (by omega)
                ⟨k,rest,calls++[.send fd (data.data.drop n) flags j]⟩
              have hleft : data.size-(n+j) = m+1-j := by omega
              rw [hleft] at h
              simpa only [accepted,hj,and_self,decide_true,Bool.true_and] using h
            · have hrun := Sys.send_refused fd flags (data.data.drop n)
                (s := ⟨k,.send (.ok j)::rest,calls⟩) rfl (hlen ▸ hj)
              simp only [accepted,decide_eq_false hj,Bool.false_and]
              exact .halt hrun
        | _ => exact ⟨_,fun _ => rfl⟩
    · have he : n = data.size := by omega
      simp only [he,sendLoop,Nat.lt_irrefl,if_false,Nat.sub_self,accepted]
      exact .pure ()

theorem Connection.send_outcome (c : Connection) (data : Buffer) (flags : Nat)
    (s : SysState) : Outcome (fun _ : Unit => id) (c.send data · flags) s
      (Operation.succeeds s (.send c data flags)) := by
  by_cases hc : c.isConnected = true ∧ data.size ≠ 0
  · have hg : (!c.isConnected || data.size == 0) = false := by simp [hc.1,hc.2]
    have hd : (data.size != 0) = true := by simp [hc.2]
    simp only [send,hg,Bool.false_eq_true,if_false]
    simp only [Operation.succeeds,hc.1,hd,Bool.true_and]
    exact sendLoop_outcome c.socket data _ data.size 0 (by omega) (by omega) s
  · have hg : (!c.isConnected || data.size == 0) = true := by
      by_cases h : c.isConnected = true
      · simpa [h] using fun hs => hc ⟨h,hs⟩
      · simp [h]
    have hb : Operation.succeeds s (.send c data flags) = false := by
      by_cases h : c.isConnected = true
      · have hs : data.size = 0 := by simpa [h] using hg
        simp [Operation.succeeds,hs]
      · simp [Operation.succeeds,h]
    simp only [send,hg,if_true,hb]
    exact .ignores

namespace Operation

/-- Success leaves the code it was given; nothing else depends on that code. -/
theorem reporting_outcome (o : Operation) (s : SysState) :
    Outcome Prod.mk o.reporting s (o.succeeds s) := by
  cases o with
  | resolve hostname service =>
    exact (resolve_outcome hostname service s).map (f := fun r => ((), r)) fun _ _ => rfl
  | connect c es => exact (c.connect_outcome es s).map (f := fun c' => (c', ())) fun _ _ => rfl
  | send c data flags =>
    exact (c.send_outcome data flags s).map (f := fun _ => (c, ())) fun _ _ => rfl
  | receive c size flags =>
    exact (c.receive_outcome size flags s).map (f := Prod.swap) fun _ _ => rfl
  | openOn a es reuseAddr =>
    exact (a.openOn_outcome es reuseAddr s).map (f := fun a' => (a', ())) fun _ _ => rfl
  | accept a => exact (a.accept_outcome s).map (f := fun conn => (a, conn)) fun _ _ => rfl

/-- The throwing overload is the other one with a fresh code, and the throw. -/
theorem throwing_run (o : Operation) (s : SysState) : o.throwing.run s =
    match (o.reporting .clear).run s with
    | (.ok ((obj, v), ec), t) => (.ok (obj, orThrow v ec), t)
    | (.error e, t) => (.error e, t) := by
  cases o with
  | resolve hostname service =>
    simp only [throwing,reporting,resolveThrowing,Prog.run_bind]
    generalize (Yonaa.resolve hostname service .clear).run s = r
    obtain ⟨r | r,t⟩ := r <;> rfl
  | connect c es =>
    simp only [throwing,reporting,Connection.connectThrowing,Prog.run_bind]
    generalize (c.connect es .clear).run s = r
    obtain ⟨r | r,t⟩ := r <;> rfl
  | send c data flags =>
    simp only [throwing,reporting,Connection.sendThrowing,Prog.run_bind]
    generalize (c.send data .clear flags).run s = r
    obtain ⟨r | r,t⟩ := r <;> rfl
  | receive c size flags =>
    simp only [throwing,reporting,Connection.receiveThrowing,Prog.run_bind]
    generalize (c.receive size .clear flags).run s = r
    obtain ⟨r | r,t⟩ := r <;> rfl
  | openOn a es reuseAddr =>
    simp only [throwing,reporting,Acceptor.openOnThrowing,Prog.run_bind]
    generalize (a.openOn es .clear reuseAddr).run s = r
    obtain ⟨r | r,t⟩ := r <;> rfl
  | accept a =>
    simp only [throwing,reporting,Acceptor.acceptThrowing,Prog.run_bind]
    generalize (a.accept .clear).run s = r
    obtain ⟨r | r,t⟩ := r <;> rfl

/-- The overloads agree unless the code was set before a call that succeeds. -/
theorem agrees_iff (o : Operation) (ec : ErrorCode) (s : SysState) :
    o.Agrees ec s ↔ ec.isSet = false ∨ o.succeeds s = false := by
  have h := o.reporting_outcome s
  cases hs : o.succeeds s with
  | true =>
    rw [hs] at h
    obtain ⟨⟨obj,v⟩,t,hx⟩ := h
    simp only [Agrees,throwing_run,hx,orThrow,ErrorCode.isSet_clear]
    simp
  | false =>
    rw [hs] at h
    obtain ⟨⟨r,t⟩,hr⟩ := h
    simp only [or_true,iff_true,Agrees,throwing_run,hr]
    cases r with
    | error e => exact ⟨rfl,rfl⟩
    | ok x =>
      obtain ⟨⟨obj,v⟩,ec'⟩ := x
      cases he : ec'.isSet with
      | true => simp [orThrow,he]
      | false => simp [orThrow,he]

/-- An open connection on the socket 4, and the code of an earlier broken pipe. -/
theorem agrees_not_stale : ¬Agrees (.send ⟨4,.fromNativeAddress 6 (inetAddress 127 0 0 1),
      .fromNativeAddress 6 (inetAddress 127 0 0 1)⟩ (.ofList [7]) 0) (.assign 32)
    ⟨⟨[4],32,[]⟩,[.send (.ok 1)],[]⟩ := by
  intro h
  have hset : (ErrorCode.assign 32).isSet = true ↔
      ∃ e, (Except.ok () : Except ErrorCode Unit) = .error e := And.left h
  obtain ⟨e,he⟩ := hset.mp (by decide)
  cases he

end Operation
end Yonaa
