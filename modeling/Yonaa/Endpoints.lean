import Yonaa.Connection
import Yonaa.Creation

/-! The loops over the endpoints of an address: which descriptors they leave open, and which
endpoint a connection is made to. -/
namespace Yonaa

inductive Creation where
  | connected
  | listening (backlogSize : Nat) (reuseAddr : Bool)

namespace Creation

def create : Creation → List Endpoint → Sys Int
  | .connected => SocketOps.createConnectedSocket
  | .listening backlogSize reuseAddr => SocketOps.createListeningSocket backlogSize reuseAddr

def setUp : Creation → List Stage
  | .connected => [Stage.connect]
  | .listening backlogSize reuseAddr => Yonaa.listening backlogSize reuseAddr

theorem create_created (c : Creation) (es : List Endpoint) (s : SysState) :
    SocketOps.Created c.setUp es s ((c.create es).run s) := by
  cases c with
  | connected =>
    rw [create,SocketOps.createConnectedSocket_eq]
    exact SocketOps.createWith_created _ es s
  | listening backlogSize reuseAddr =>
    rw [create,SocketOps.createListeningSocket_eq]
    exact SocketOps.createWith_created _ es s

end Creation

/-- Open is what was open before, and the socket that was returned. -/
def NoLeak (fd : Int) (s s' : SysState) : Prop :=
  ∀ x, x ∈ s'.kernel.fds ↔ x ∈ s.kernel.fds ∨ fd ≠ 0 ∧ x = fd

/-- Nothing leaks exactly if no endpoint gets a socket whose set-up then fails. -/
theorem Creation.noLeak_iff (c : Creation) {es : List Endpoint} {s s' : SysState} {fd : Int}
    (hr : (c.create es).run s = (.ok fd, s'))
    (hpos : ∀ x, .socket (.ok x) ∈ s.answers → 0 < x) :
    NoLeak fd s s' ↔ wasted c.setUp es s.answers = [] := by
  have h := c.create_created es s
  rw [hr] at h
  cases h with
  | found ho hmade hnew hfresh hfds he =>
    have hfd : fd ≠ 0 := by
      have hmem : fd ∈ s'.kernel.fds := by
        rw [hfds]
        exact List.mem_cons_self
      have hanswer := (he.new fd hmem).resolve_left fun h => hnew.2 (List.mem_append_right _ h)
      exact (hpos fd hanswer).ne'
    constructor
    · intro h
      apply List.eq_nil_iff_forall_not_mem.mpr
      intro x hx
      obtain hold | ⟨-,rfl⟩ := (h x).mp (by rw [hfds]; simp [hx])
      · exact hfresh x hx hold
      · exact hnew.2 (List.mem_append_left _ hx)
    · intro h x
      rw [hfds,h]
      simp [hfd,or_comm]
  | none ho hmade hfresh hfds herrno he =>
    constructor
    · intro h
      apply List.eq_nil_iff_forall_not_mem.mpr
      intro x hx
      have hold := (h x).mp (by rw [hfds]; simp [hx])
      simp only [ne_eq,not_true_eq_false,false_and,or_false] at hold
      exact hfresh x hx hold
    · intro h x
      rw [hfds,h]
      simp

theorem Creation.noLeak_connected :
    NoLeak 4 ⟨⟨[0,1,2],0,[]⟩,[.socket (.ok 4),.connect (.ok ())],[]⟩
      ⟨⟨[4,0,1,2],0,madeFor [Stage.connect] (.fromNativeAddress 6 (inetAddress 127 0 0 1)) 4⟩,
        [],[]⟩ := by
  have hpos : ∀ x : Int, Answer.socket (.ok x) ∈ [.socket (.ok 4),.connect (.ok ())] → 0 < x := by
    intro x hx
    simp at hx
    omega
  have hr : (create .connected [.fromNativeAddress 6 (inetAddress 127 0 0 1)]).run
      ⟨⟨[0,1,2],0,[]⟩,[.socket (.ok 4),.connect (.ok ())],[]⟩ =
      (.ok 4,⟨⟨[4,0,1,2],0,madeFor [Stage.connect]
        (.fromNativeAddress 6 (inetAddress 127 0 0 1)) 4⟩,[],[]⟩) := rfl
  exact (noLeak_iff .connected hr hpos).mpr rfl

/-- A refused connection leaves its socket open. -/
theorem Creation.refused_leaks : ¬∀ (c : Creation) (es : List Endpoint) (s s' : SysState) (fd : Int),
    (c.create es).run s = (.ok fd, s') → (∀ x, .socket (.ok x) ∈ s.answers → 0 < x) →
    NoLeak fd s s' := by
  intro h
  have hpos : ∀ x : Int, Answer.socket (.ok x) ∈
      [.socket (.ok 4),.connect (.error ⟨111,by decide⟩)] → 0 < x := by
    intro x hx
    simp at hx
    omega
  have hleak := h .connected [.fromNativeAddress 6 (inetAddress 127 0 0 1)]
    ⟨⟨[0,1,2],0,[]⟩,[.socket (.ok 4),.connect (.error ⟨111,by decide⟩)],[]⟩ _ 0 rfl hpos 4
  exact absurd hleak (by decide)

namespace Connection
open Sys

/-- After `connect`, by the calls it made: the object has the socket of the first endpoint at
which ::socket and ::connect succeeded and there is no error, or they failed at all endpoints,
there is an error, and the object is as it was. -/
def ConnectsFirst (c : Connection) (es : List Endpoint) (s : SysState) (c' : Connection)
    (ec : ErrorCode) (s' : SysState) : Prop :=
  (∃ e fd, MadeFirst [Stage.connect] es e fd s.kernel.setUps s'.kernel.setUps ∧
    c'.isConnected = true ∧ ec.isSet = false ∧ c'.socket = fd) ∨
  NoneMade [Stage.connect] es s.kernel.setUps s'.kernel.setUps ∧
    c'.isConnected = false ∧ ec.isSet = true ∧ c' = c

/-- The calls that connect a socket. -/
example (e : Endpoint) (fd : Int) :
    madeFor [Stage.connect] e fd = [.socket e fd,.connect fd e 0] := rfl

theorem not_connected {es : List Endpoint} {calls : List SetUp}
    (h : AllFail [Stage.connect] es calls) (fd : Int) (e : Endpoint) :
    .connect fd e 0 ∉ calls := by
  induction h with
  | nil => exact List.not_mem_nil
  | @cons e' es calls calls' h _ ih =>
    refine fun hmem => (List.mem_append.mp hmem).elim (fun hmem => ?_) ih
    cases h with
    | socket => simp at hmem
    | @later fd' before after st h =>
      obtain ⟨rfl,hst⟩ | ⟨l,-,hl⟩ := List.cons_eq_append_iff.mp h
      · cases hst
        simp [madeFor,Stage.connect] at hmem
      · simp at hl

/-- `connect` does what it should exactly if the socket of the first endpoint that can be
connected is not the descriptor 0. -/
theorem connectsFirst_iff {c c' : Connection} {es : List Endpoint} {s s' : SysState}
    {ec : ErrorCode} (hc : c.isConnected = false) (hes : es ≠ [])
    (hr : (c.connect es .clear).run s = (.ok (c', ec), s')) :
    ConnectsFirst c es s c' ec s' ↔
      ∀ e rest, opened [Stage.connect] s.kernel.fds es s.answers ≠ some (e, 0, rest) := by
  have hempty : es.isEmpty = false := by simpa using hes
  have h := Creation.connected.create_created es s
  simp only [connect,hempty,Bool.false_eq_true,if_false] at hr
  change SocketOps.Created [Stage.connect] es s ((SocketOps.createConnectedSocket es).run s) at h
  generalize hrun : (SocketOps.createConnectedSocket es).run s = r at h
  cases h with
  | @found e fd s₁ ho hmade hnew hfresh hfds he =>
    rw [Prog.bind_ok hrun] at hr
    rw [ho]
    by_cases hz : fd = 0
    · rw [if_pos hz,Prog.bind_ok (errno_apply s₁)] at hr
      cases hr
      refine iff_of_false ?_ fun h => h e _ (by rw [hz])
      rintro (⟨-,-,-,hopen,-⟩ | ⟨⟨all,hall,hcalls⟩,-⟩)
      · rw [hc] at hopen
        cases hopen
      · obtain ⟨before,after,tried,-,-,hsetUps⟩ := hmade
        rw [hsetUps] at hcalls
        refine not_connected hall fd e ?_
        rw [← List.append_cancel_left hcalls]
        simp [madeFor,Stage.connect]
    · rw [if_neg hz] at hr
      refine iff_of_true ?_ fun _ _ h => by cases h; exact hz rfl
      obtain ⟨localEndpoint,s₂,hlocal,hr⟩ := Prog.of_bind_ok hr
      obtain ⟨remoteEndpoint,s₃,hremote,hr⟩ := Prog.of_bind_ok hr
      cases hr
      have hsame : s'.kernel.setUps = s₁.kernel.setUps :=
        (SocketOps.getEndpoint_same hremote).setUps.trans
          (SocketOps.getEndpoint_same hlocal).setUps
      exact Or.inl ⟨e,fd,by rw [hsame]; exact hmade,bne_iff_ne.mpr hz,rfl,rfl⟩
  | @none s₁ ho hmade hfresh hfds herrno he =>
    rw [Prog.bind_ok hrun,if_pos rfl,Prog.bind_ok (errno_apply s₁)] at hr
    cases hr
    rw [ho]
    refine iff_of_true (Or.inr ⟨hmade,hc,?_,rfl⟩) fun _ _ h => by cases h
    exact ErrorCode.isSet_errno ⟨_,herrno (Or.inr hes)⟩
  | cut ho he =>
    rw [Prog.bind_error hrun] at hr
    cases hr

/-- The first endpoint refuses, the second one is connected. -/
theorem connectsFirst_second : ∃ c' ec s', ConnectsFirst {}
      [.fromNativeAddress 6 (inetAddress 10 0 0 1),.fromNativeAddress 6 (inetAddress 127 0 0 1)]
      ⟨⟨[0,1,2],0,[]⟩,[.socket (.ok 4),.connect (.error ⟨111,by decide⟩),.socket (.ok 5),
        .connect (.ok ()),.getname (.ok ()) (inetAddress 127 0 0 1),.getsockopt (.ok ()) 6,
        .getname (.ok ()) (inetAddress 127 0 0 1),.getsockopt (.ok ()) 6],[]⟩ c' ec s' ∧
    c'.socket = 5 := by
  obtain ⟨c',ec,s',hr,hsocket⟩ : ∃ c' ec s', (connect {} [.fromNativeAddress 6
      (inetAddress 10 0 0 1),.fromNativeAddress 6 (inetAddress 127 0 0 1)] .clear).run
      ⟨⟨[0,1,2],0,[]⟩,[.socket (.ok 4),.connect (.error ⟨111,by decide⟩),.socket (.ok 5),
        .connect (.ok ()),.getname (.ok ()) (inetAddress 127 0 0 1),.getsockopt (.ok ()) 6,
        .getname (.ok ()) (inetAddress 127 0 0 1),.getsockopt (.ok ()) 6],[]⟩ =
      (.ok (c',ec),s') ∧ c'.socket = 5 := ⟨_,_,_,rfl,rfl⟩
  refine ⟨c',ec,s',(connectsFirst_iff rfl (by simp) hr).mpr ?_,hsocket⟩
  intro e rest h
  cases h

/-- With standard input closed the socket is the descriptor 0. -/
theorem connect_zero_lost : ¬∀ (c c' : Connection) (es : List Endpoint) (s s' : SysState)
    (ec : ErrorCode), c.isConnected = false → es ≠ [] →
    (c.connect es .clear).run s = (.ok (c', ec), s') → ConnectsFirst c es s c' ec s' := by
  intro h
  obtain ⟨-,-,-,hopen,-⟩ | ⟨-,-,hset,-⟩ :=
    h {} {} [.fromNativeAddress 6 (inetAddress 127 0 0 1)]
      ⟨⟨[1,2],0,[]⟩,[.socket (.ok 0),.connect (.ok ())],[]⟩ _ _ rfl (by simp) rfl
  · exact absurd hopen (by decide)
  · exact absurd hset (by decide)

end Connection
end Yonaa
