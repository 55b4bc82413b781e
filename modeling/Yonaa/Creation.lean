import Yonaa.Connection

/-! What the `create` functions of socket_ops.cpp make of the kernel's answers: which
endpoint gets a socket, and which descriptors are open afterwards. -/
namespace Yonaa

/-- The next answers are those of n queries for an endpoint. -/
def named : Nat → List Answer → Bool
  | 0, _ => true
  | n+1, .getname _ _::.getsockopt _ _::rest => named n rest
  | _+1, _ => false

/-- A call after ::socket, by its answer and by what is entered in the history. -/
structure Stage where
  pick : Answer → Option (Except Errno Unit)
  call : Int → Endpoint → Int → SetUp

namespace Stage
def setsockopt : Stage := ⟨Answer.asSetsockopt,fun fd _ => .setsockopt fd⟩
def connect : Stage := ⟨Answer.asConnect,.connect⟩
def bind : Stage := ⟨Answer.asBind,.bind⟩
def listen (backlogSize : Nat) : Stage := ⟨Answer.asListen,fun fd _ => .listen fd backlogSize⟩

def run (st : Stage) (fd : Int) (e : Endpoint) : Sys Int :=
  Sys.entered (st.call fd e) (Sys.ask st.pick >>= Sys.status)
end Stage

def listening (backlogSize : Nat) (reuseAddr : Bool) : List Stage :=
  (if reuseAddr then [Stage.setsockopt] else [])++[Stage.bind,Stage.listen backlogSize]

/-- Whether the calls all succeed, and the answers after the last one. -/
def attempt : List Stage → List Answer → Option (Bool × List Answer)
  | [], rest => some (true, rest)
  | _::_, [] => none
  | st::stages, a::rest => match st.pick a with
    | some (.ok ()) => attempt stages rest
    | some (.error _) => some (false, rest)
    | none => none

/-- The first endpoint whose ::socket and whose calls after it succeed, with its socket. -/
def opened (stages : List Stage) :
    List Int → List Endpoint → List Answer → Option (Endpoint × Int × List Answer)
  | fds, _::es, .socket (.error _)::rest => opened stages fds es rest
  | fds, e::es, .socket (.ok fd)::rest =>
    if 0 ≤ fd ∧ fd ∉ fds then
      match attempt stages rest with
      | some (true, rest) => some (e, fd, rest)
      | some (false, rest) => opened stages (fd::fds) es rest
      | none => none
    else none
  | _, _, _ => none

/-- The sockets of the endpoints whose set-up failed, the last one first. -/
def wasted (stages : List Stage) : List Endpoint → List Answer → List Int
  | _::es, .socket (.error _)::rest => wasted stages es rest
  | _::es, .socket (.ok fd)::rest =>
    match attempt stages rest with
    | some (false, rest) => wasted stages es rest++[fd]
    | _ => []
  | _, _ => []

def madeFor (stages : List Stage) (e : Endpoint) (fd : Int) : List SetUp :=
  .socket e fd::stages.map fun st => st.call fd e 0

/-- The calls at an endpoint at which ::socket or a call after it fails. -/
inductive FailsAt (stages : List Stage) (e : Endpoint) : List SetUp → Prop where
  | socket : FailsAt stages e [.socket e (-1)]
  | later {fd : Int} {before after : List Stage} {st : Stage} (h : stages = before++st::after) :
      FailsAt stages e (madeFor before e fd++[st.call fd e (-1)])

inductive AllFail (stages : List Stage) : List Endpoint → List SetUp → Prop where
  | nil : AllFail stages [] []
  | cons {e : Endpoint} {es : List Endpoint} {calls calls' : List SetUp}
      (h : FailsAt stages e calls) (h' : AllFail stages es calls') :
      AllFail stages (e::es) (calls++calls')

/-- Between the two histories all endpoints before e failed, and for e the socket fd was made. -/
def MadeFirst (stages : List Stage) (es : List Endpoint) (e : Endpoint) (fd : Int)
    (setUps setUps' : List SetUp) : Prop :=
  ∃ before after tried, es = before++e::after ∧ AllFail stages before tried ∧
    setUps' = setUps++(tried++madeFor stages e fd)

def NoneMade (stages : List Stage) (es : List Endpoint) (setUps setUps' : List SetUp) : Prop :=
  ∃ tried, AllFail stages es tried ∧ setUps' = setUps++tried

/-- Descriptors of new sockets were added, and no call was recorded. -/
structure Extends (s s' : SysState) : Prop where
  fds : s.kernel.fds ⊆ s'.kernel.fds
  new : ∀ fd ∈ s'.kernel.fds, fd ∈ s.kernel.fds ∨ .socket (.ok fd) ∈ s.answers
  calls : s'.calls = s.calls
  answers : s'.answers <:+ s.answers

namespace Extends

theorem of_same {s s' : SysState} (h : Sys.Same s s') : Extends s s' := by
  obtain ⟨hf,-,hc,ha⟩ := h
  refine ⟨?_,?_,hc,ha⟩
  · rw [hf]
    exact List.Subset.refl _
  · intro fd hfd
    rw [hf] at hfd
    exact Or.inl hfd

theorem refl (s : SysState) : Extends s s := .of_same (.refl s)

theorem trans {s t u : SysState} (h : Extends s t) (h' : Extends t u) : Extends s u := by
  refine ⟨List.Subset.trans h.fds h'.fds,?_,h'.calls.trans h.calls,h'.answers.trans h.answers⟩
  intro fd hfd
  obtain ht | ht := h'.new fd hfd
  · exact h.new fd ht
  · exact Or.inr (h.answers.subset ht)

end Extends

namespace SocketOps
open Sys

theorem getname_named (s : SysState) :
    (∃ addr s', getname.run s = (.ok addr, s') ∧ Same s s' ∧
      ∃ r, s.answers = .getname r addr::s'.answers) ∨
    (getname.run s = (.error .cut, s) ∧ ∀ n, named (n+1) s.answers = false) := by
  obtain ⟨k,answers,calls⟩ := s
  cases answers with
  | nil => exact Or.inr ⟨rfl,fun _ => rfl⟩
  | cons a rest => cases a with
    | getname r addr =>
      cases r <;> exact Or.inl ⟨_,_,rfl,⟨rfl,rfl,rfl,List.suffix_cons _ rest⟩,_,rfl⟩
    | _ => exact Or.inr ⟨rfl,fun _ => rfl⟩

theorem getEndpoint_named (fd : Int) (localSocket : Bool) (s : SysState) :
    (∃ e s', (getEndpoint fd localSocket).run s = (.ok e, s') ∧ Same s s' ∧
      ∀ n, named (n+1) s.answers = named n s'.answers) ∨
    (∃ h s', (getEndpoint fd localSocket).run s = (.error h, s') ∧ Same s s' ∧
      ∀ n, named (n+1) s.answers = false) := by
  rw [getEndpoint_eq]
  obtain ⟨addr,s',h,hs,r,hr⟩ | ⟨h,hn⟩ := getname_named s
  · rw [Prog.bind_ok h,hr]
    obtain ⟨k,answers,calls⟩ := s'
    cases answers with
    | nil => exact Or.inr ⟨_,_,rfl,hs,fun _ => rfl⟩
    | cons a rest => cases a with
      | getsockopt r protocol =>
        cases r <;>
          exact Or.inl ⟨_,_,rfl,hs.trans ⟨rfl,rfl,rfl,List.suffix_cons _ rest⟩,fun _ => rfl⟩
      | _ => exact Or.inr ⟨_,_,rfl,hs,fun _ => rfl⟩
  · exact Or.inr ⟨_,_,Prog.bind_error h,.refl s,hn⟩

/-- The calls new were entered, and nothing else happened to the sockets. -/
structure Enters (new : List SetUp) (s s' : SysState) : Prop where
  setUps : s'.kernel.setUps = s.kernel.setUps++new
  fds : s'.kernel.fds = s.kernel.fds
  calls : s'.calls = s.calls
  answers : s'.answers <:+ s.answers

theorem Enters.refl (s : SysState) : Enters [] s s :=
  ⟨(List.append_nil _).symm,rfl,rfl,List.suffix_refl _⟩

theorem Enters.trans {new new' : List SetUp} {s t u : SysState} (h : Enters new s t)
    (h' : Enters new' t u) : Enters (new++new') s u := by
  refine ⟨?_,h'.fds.trans h.fds,h'.calls.trans h.calls,h'.answers.trans h.answers⟩
  rw [h'.setUps,h.setUps,List.append_assoc]

theorem Enters.extends {new : List SetUp} {s s' : SysState} (h : Enters new s s') :
    Extends s s' := by
  refine ⟨?_,?_,h.calls,h.answers⟩
  · rw [h.fds]
    exact List.Subset.refl _
  · intro fd hfd
    rw [h.fds] at hfd
    exact Or.inl hfd

theorem stage_attempt (st : Stage) (fd : Int) (e : Endpoint) (s : SysState) :
    (∃ s', (st.run fd e).run s = (.ok 0, s') ∧ Enters [st.call fd e 0] s s' ∧
      ∀ stages, attempt (st::stages) s.answers = attempt stages s'.answers) ∨
    (∃ s', (st.run fd e).run s = (.ok (-1), s') ∧ Enters [st.call fd e (-1)] s s' ∧
      0 < s'.kernel.errno ∧ ∀ stages, attempt (st::stages) s.answers = some (false, s'.answers)) ∨
    ((st.run fd e).run s = (.error .cut, s) ∧ ∀ stages, attempt (st::stages) s.answers = none) := by
  obtain ⟨k,answers,calls⟩ := s
  cases answers with
  | nil => exact Or.inr (Or.inr ⟨rfl,fun _ => rfl⟩)
  | cons a rest =>
    cases hp : st.pick a with
    | none =>
      have h : (ask st.pick).run ⟨k,a::rest,calls⟩ = (.error .cut, ⟨k,a::rest,calls⟩) := by
        simp [ask,hp]
      exact Or.inr (Or.inr ⟨Prog.bind_error (Prog.bind_error h),fun _ => by simp [attempt,hp]⟩)
    | some r =>
      have h : (ask st.pick).run ⟨k,a::rest,calls⟩ = (.ok r, ⟨k,rest,calls⟩) := by simp [ask,hp]
      have h := (Prog.bind_ok h : (ask st.pick >>= status).run ⟨k,a::rest,calls⟩ = _)
      cases r with
      | ok u =>
        have hr : (st.run fd e).run ⟨k,a::rest,calls⟩ =
            (.ok 0, ⟨⟨k.fds,k.errno,k.setUps++[st.call fd e 0]⟩,rest,calls⟩) :=
          Prog.bind_ok h
        exact Or.inl ⟨_,hr,⟨rfl,rfl,rfl,List.suffix_cons a rest⟩,fun _ => by simp [attempt,hp]⟩
      | error err =>
        have hr : (st.run fd e).run ⟨k,a::rest,calls⟩ =
            (.ok (-1), ⟨⟨k.fds,err.1,k.setUps++[st.call fd e (-1)]⟩,rest,calls⟩) :=
          Prog.bind_ok h
        exact Or.inr (Or.inl ⟨_,hr,⟨rfl,rfl,rfl,List.suffix_cons a rest⟩,err.2,
          fun _ => by simp [attempt,hp]⟩)

def chain (next : Sys Int) (fd : Int) (e : Endpoint) : List Stage → Sys Int
  | [] => pure fd
  | st::stages => do
    let v ← st.run fd e
    if v = -1 then next else chain next fd e stages

def createWith (stages : List Stage) : List Endpoint → Sys Int
  | [] => return 0
  | e::es => do
    let fd ← Sys.socket e
    if fd = -1 then createWith stages es else chain (createWith stages es) fd e stages

theorem createConnectedSocket_eq (es : List Endpoint) :
    createConnectedSocket es = createWith [Stage.connect] es := by
  induction es with
  | nil => rfl
  | cons e es ih =>
    rw [createConnectedSocket,createWith,ih]
    rfl

theorem createListeningSocket_eq (backlogSize : Nat) (reuseAddr : Bool) (es : List Endpoint) :
    createListeningSocket backlogSize reuseAddr es =
      createWith (listening backlogSize reuseAddr) es := by
  induction es with
  | nil => rfl
  | cons e es ih =>
    rw [createListeningSocket,createWith,ih]
    cases reuseAddr with
    | true => rfl
    | false => rfl

/-- A chain does what `attempt` says. -/
theorem chain_attempt (stages : List Stage) (next : Sys Int) (fd : Int) (e : Endpoint)
    (s : SysState) :
    (∃ s', (chain next fd e stages).run s = (.ok fd, s') ∧
      Enters (stages.map fun st => st.call fd e 0) s s' ∧
      attempt stages s.answers = some (true, s'.answers)) ∨
    (∃ s' before st after, (chain next fd e stages).run s = next.run s' ∧
      stages = before++st::after ∧
      Enters ((before.map fun st => st.call fd e 0)++[st.call fd e (-1)]) s s' ∧
      0 < s'.kernel.errno ∧ attempt stages s.answers = some (false, s'.answers)) ∨
    (∃ s', (chain next fd e stages).run s = (.error .cut, s') ∧ Extends s s' ∧
      attempt stages s.answers = none) := by
  induction stages generalizing s with
  | nil => exact Or.inl ⟨s,rfl,.refl s,rfl⟩
  | cons st stages ih =>
    obtain ⟨s₁,h,hs,ha⟩ | ⟨s₁,h,hs,herrno,ha⟩ | ⟨h,ha⟩ := stage_attempt st fd e s
    · rw [chain,Prog.bind_ok h,if_neg (by decide),ha]
      obtain ⟨s₂,hr,hs₂,ha₂⟩ | ⟨s₂,before,st',after,hr,hst,hs₂,herrno₂,ha₂⟩ | ⟨s₂,hr,hs₂,ha₂⟩ :=
        ih s₁
      · exact Or.inl ⟨s₂,hr,hs.trans hs₂,ha₂⟩
      · refine Or.inr (Or.inl ⟨s₂,st::before,st',after,hr,?_,hs.trans hs₂,herrno₂,ha₂⟩)
        rw [hst,List.cons_append]
      · exact Or.inr (Or.inr ⟨s₂,hr,hs.extends.trans hs₂,ha₂⟩)
    · rw [chain,Prog.bind_ok h,if_pos rfl,ha]
      exact Or.inr (Or.inl ⟨s₁,[],st,stages,rfl,rfl,hs,herrno,rfl⟩)
    · rw [chain,Prog.bind_error h,ha]
      exact Or.inr (Or.inr ⟨s,rfl,.refl s,rfl⟩)

/-- What the loop over the endpoints does, from s: it returns the socket `opened` speaks of,
or 0 for "none", or it is cut. The sockets in `wasted` stay open. -/
inductive Created (stages : List Stage) (es : List Endpoint) (s : SysState) :
    Except Halt Int × SysState → Prop where
  | found {e : Endpoint} {fd : Int} {s' : SysState}
      (ho : opened stages s.kernel.fds es s.answers = some (e, fd, s'.answers))
      (hmade : MadeFirst stages es e fd s.kernel.setUps s'.kernel.setUps)
      (hnew : 0 ≤ fd ∧ fd ∉ wasted stages es s.answers++s.kernel.fds)
      (hfresh : ∀ fd ∈ wasted stages es s.answers, fd ∉ s.kernel.fds)
      (hfds : s'.kernel.fds = fd::(wasted stages es s.answers++s.kernel.fds))
      (he : Extends s s') : Created stages es s (.ok fd, s')
  | none {s' : SysState} (ho : opened stages s.kernel.fds es s.answers = none)
      (hmade : NoneMade stages es s.kernel.setUps s'.kernel.setUps)
      (hfresh : ∀ fd ∈ wasted stages es s.answers, fd ∉ s.kernel.fds)
      (hfds : s'.kernel.fds = wasted stages es s.answers++s.kernel.fds)
      (herrno : 0 < s.kernel.errno ∨ es ≠ [] → 0 < s'.kernel.errno)
      (he : Extends s s') : Created stages es s (.ok 0, s')
  | cut {s' : SysState} (ho : opened stages s.kernel.fds es s.answers = none)
      (he : Extends s s') : Created stages es s (.error .cut, s')

theorem Created.later {stages : List Stage} {e : Endpoint} {es : List Endpoint}
    {s s₁ : SysState} {r : Except Halt Int × SysState} {calls : List SetUp}
    (h : Created stages es s₁ r) (hcalls : FailsAt stages e calls)
    (hsetUps₁ : s₁.kernel.setUps = s.kernel.setUps++calls) (he : Extends s s₁)
    (herr : 0 < s₁.kernel.errno)
    (ho : opened stages s.kernel.fds (e::es) s.answers = opened stages s₁.kernel.fds es s₁.answers)
    (hw : wasted stages (e::es) s.answers++s.kernel.fds =
      wasted stages es s₁.answers++s₁.kernel.fds)
    (hfresh : ∀ fd ∈ wasted stages (e::es) s.answers, fd ∉ wasted stages es s₁.answers →
      fd ∉ s.kernel.fds) : Created stages (e::es) s r := by
  have hall : (∀ fd ∈ wasted stages es s₁.answers, fd ∉ s₁.kernel.fds) →
      ∀ fd ∈ wasted stages (e::es) s.answers, fd ∉ s.kernel.fds := by
    intro hlater fd hfd hmem
    by_cases h : fd ∈ wasted stages es s₁.answers
    · exact hlater fd h (he.fds hmem)
    · exact hfresh fd hfd h hmem
  cases h with
  | @found e' fd s' ho' hmade hnew hfresh' hfds he' =>
    obtain ⟨before,after,tried,hes,hfail,hsetUps⟩ := hmade
    refine .found (by rw [ho,ho']) ⟨e::before,after,calls++tried,?_,.cons hcalls hfail,?_⟩
      (by rw [hw]; exact hnew) (hall hfresh') (by rw [hw]; exact hfds) (he.trans he')
    · rw [hes,List.cons_append]
    · rw [hsetUps,hsetUps₁]
      simp only [List.append_assoc]
  | @none s' ho' hmade hfresh' hfds herrno he' =>
    obtain ⟨tried,hfail,hsetUps⟩ := hmade
    refine .none (by rw [ho,ho']) ⟨calls++tried,.cons hcalls hfail,?_⟩ (hall hfresh')
      (by rw [hw]; exact hfds) (fun _ => herrno (Or.inl herr)) (he.trans he')
    rw [hsetUps,hsetUps₁,List.append_assoc]
  | cut ho' he' => exact .cut (by rw [ho,ho']) (he.trans he')

/-- The calls at the endpoint e, once ::socket has made a socket for it. -/
theorem attempted_created {stages : List Stage} {es : List Endpoint} {fd : Int} {k : Kernel}
    {rest : List Answer} {calls : List SysCall} (e : Endpoint) (hf : 0 ≤ fd ∧ fd ∉ k.fds)
    (ih : ∀ s, Created stages es s ((createWith stages es).run s)) :
    Created stages (e::es) ⟨k,.socket (.ok fd)::rest,calls⟩
      ((createWith stages (e::es)).run ⟨k,.socket (.ok fd)::rest,calls⟩) := by
  have hopen := fresh_new (s := ⟨k,rest,calls⟩) hf
  have h : (Sys.socket e).run ⟨k,.socket (.ok fd)::rest,calls⟩ = (.ok fd,
      ⟨⟨fd::k.fds,k.errno,k.setUps++[.socket e fd]⟩,rest,calls⟩) :=
    Prog.bind_ok hopen
  have hext : Extends ⟨k,.socket (.ok fd)::rest,calls⟩
      ⟨⟨fd::k.fds,k.errno,k.setUps++[.socket e fd]⟩,rest,calls⟩ := by
    refine ⟨List.subset_cons_self fd k.fds,?_,rfl,List.suffix_cons _ rest⟩
    intro x hx
    obtain rfl | hx := List.mem_cons.mp hx
    · exact Or.inr List.mem_cons_self
    · exact Or.inl hx
  rw [createWith,Prog.bind_ok h,if_neg (by omega)]
  obtain ⟨s₂,hr,hs,ha⟩ | ⟨s₂,before,st,after,hr,hst,hs,herrno,ha⟩ | ⟨s₂,hr,hs,ha⟩ :=
    chain_attempt stages (createWith stages es) fd e
      ⟨⟨fd::k.fds,k.errno,k.setUps++[.socket e fd]⟩,rest,calls⟩
  · have ha : attempt stages rest = some (true, s₂.answers) := ha
    have hw : wasted stages (e::es) (.socket (.ok fd)::rest) = [] := by
      simp only [wasted,ha]
    rw [hr]
    refine .found ?_ ⟨[],es,[],rfl,.nil,?_⟩ ⟨hf.1,by rw [hw]; exact hf.2⟩
      (by simp [hw]) (by rw [hw]; exact hs.fds) (hext.trans hs.extends)
    · simp only [opened,if_pos hf,ha]
    · rw [hs.setUps,List.append_assoc]
      rfl
  · have ha : attempt stages rest = some (false, s₂.answers) := ha
    have hw : wasted stages (e::es) (.socket (.ok fd)::rest) =
        wasted stages es s₂.answers++[fd] := by simp only [wasted,ha]
    rw [hr]
    have hfails : FailsAt stages e (madeFor before e fd++[st.call fd e (-1)]) := .later hst
    refine (ih s₂).later hfails ?_ (hext.trans hs.extends) herrno ?_ ?_ ?_
    · exact hs.setUps.trans (List.append_assoc _ _ _)
    · simp only [opened,if_pos hf,ha,hs.fds]
    · simp only [hw,hs.fds,List.append_assoc,List.singleton_append]
    · intro x hx hno
      rw [hw] at hx
      have hx : x = fd := by simpa [hno] using hx
      rw [hx]
      exact hf.2
  · have ha : attempt stages rest = none := ha
    rw [hr]
    refine .cut ?_ (hext.trans hs)
    simp only [opened,if_pos hf,ha]

theorem createWith_created (stages : List Stage) (es : List Endpoint) (s : SysState) :
    Created stages es s ((createWith stages es).run s) := by
  induction es generalizing s with
  | nil =>
    have hw : wasted stages [] s.answers = [] := by simp [wasted]
    refine .none (by simp [opened]) ⟨[],.nil,(List.append_nil _).symm⟩ (by simp [hw])
      (by rw [hw]; rfl) ?_ (.refl s)
    intro h
    exact h.resolve_right fun h => h rfl
  | cons e es ih =>
    obtain ⟨k,answers,calls⟩ := s
    cases answers with
    | nil => exact .cut rfl (.refl _)
    | cons a rest => cases a with
      | socket r => cases r with
        | error err =>
          have h : (Sys.socket e).run ⟨k,.socket (.error err)::rest,calls⟩ = (.ok (-1),
            ⟨⟨k.fds,err.1,k.setUps++[.socket e (-1)]⟩,rest,calls⟩) := rfl
          have hs : Extends ⟨k,.socket (.error err)::rest,calls⟩
              ⟨⟨k.fds,err.1,k.setUps++[.socket e (-1)]⟩,rest,calls⟩ :=
            ⟨List.Subset.refl _,fun _ => Or.inl,rfl,List.suffix_cons _ rest⟩
          rw [createWith,Prog.bind_ok h,if_pos rfl]
          exact (ih _).later .socket rfl hs err.2 rfl rfl fun fd hfd hno => absurd hfd hno
        | ok fd =>
          by_cases hf : 0 ≤ fd ∧ fd ∉ k.fds
          · exact attempted_created e hf ih
          · have hcut := fresh_refused (s := ⟨k,rest,calls⟩) hf
            have h : (Sys.socket e).run ⟨k,.socket (.ok fd)::rest,calls⟩ =
              (.error .cut, ⟨k,rest,calls⟩) := Prog.bind_error hcut
            rw [createWith,Prog.bind_error h]
            refine .cut ?_ (.of_same ⟨rfl,rfl,rfl,List.suffix_cons _ rest⟩)
            simp only [opened,if_neg hf]
      | _ => exact .cut rfl (.of_same ⟨rfl,rfl,rfl,List.suffix_refl _⟩)

/-- A program that creates a socket, started in s in a loop that was entered in s₀, does
what `opened` says: it returns the new socket, or 0 for "none", or it is cut. -/
def Found (m : Sys Int) (s₀ s : SysState) (o : Option (Int × List Answer)) : Prop :=
  (∃ fd s', m.run s = (.ok fd, s') ∧ Extends s₀ s' ∧
    (o = some (fd, s'.answers) ∧ fd ∉ s₀.kernel.fds ∧ fd ∈ s'.kernel.fds ∨
      fd = 0 ∧ o = none)) ∨
  (∃ h s', m.run s = (.error h, s') ∧ Extends s₀ s' ∧ o = none)

theorem createWith_found (stages : List Stage) (es : List Endpoint) (s : SysState) :
    Found (createWith stages es) s s
      ((opened stages s.kernel.fds es s.answers).map Prod.snd) := by
  have h := createWith_created stages es s
  unfold Found
  generalize (createWith stages es).run s = r at h ⊢
  cases h with
  | @found e fd s' ho hmade hnew hfresh hfds he =>
    rw [ho]
    refine Or.inl ⟨fd,s',rfl,he,Or.inl ⟨rfl,?_,by rw [hfds]; exact List.mem_cons_self⟩⟩
    exact fun hmem => hnew.2 (List.mem_append_right _ hmem)
  | none ho hmade hfresh hfds herrno he =>
    rw [ho]
    exact Or.inl ⟨0,_,rfl,he,Or.inr ⟨rfl,rfl⟩⟩
  | cut ho he =>
    rw [ho]
    exact Or.inr ⟨_,_,rfl,he,rfl⟩

theorem createConnectedSocket_found (es : List Endpoint) (s : SysState) :
    Found (createConnectedSocket es) s s
      ((opened [Stage.connect] s.kernel.fds es s.answers).map Prod.snd) := by
  rw [createConnectedSocket_eq]
  exact createWith_found _ es s

theorem createListeningSocket_found (backlogSize : Nat) (reuseAddr : Bool)
    (es : List Endpoint) (s : SysState) :
    Found (createListeningSocket backlogSize reuseAddr es) s s
      ((opened (listening backlogSize reuseAddr) s.kernel.fds es s.answers).map Prod.snd) := by
  rw [createListeningSocket_eq]
  exact createWith_found _ es s

end SocketOps
end Yonaa
