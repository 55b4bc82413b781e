import Yonaa.Objects
import Yonaa.Client

/-! The queries whether a connection has data and whether an acceptor has a pending connection,
between the operations on a pool of objects. -/
namespace Yonaa

def inputNext : List Answer → Bool
  | .poll (.ok [revents])::_ => revents &&& POLLIN != 0
  | _ => false

theorem pollSocket_reports {fd : Int} {s s' : SysState} {status : Nat}
    (h : (pollSocket fd).run s = (.ok status, s')) :
    (status &&& SocketStatus.readable != 0) = inputNext s.answers ∧
      ∃ revents n, s'.calls = s.calls++[.poll [⟨fd,POLLIN ||| POLLOUT,revents⟩] n] := by
  have hnone : (SocketStatus.none &&& SocketStatus.readable != 0) = false := by decide
  obtain ⟨kernel,answers,calls⟩ := s
  unfold pollSocket at h
  cases answers with
  | nil => cases h
  | cons a rest => cases a with
    | poll r => cases r with
      | error e =>
        cases h
        exact ⟨hnone,0,-1,rfl⟩
      | ok revents =>
        by_cases hl : revents.length = 1
        · obtain ⟨v,rfl⟩ := List.length_eq_one_iff.mp hl
          rw [Prog.bind_ok (Sys.poll_answered rfl rfl)] at h
          cases h
          refine ⟨?_,v,_,rfl⟩
          by_cases h0 : v = 0
          · subst h0
            exact hnone
          · have hone : (([v].filter (· ≠ 0)).length : Int) > 0 := by simp [h0]
            rw [if_pos hone]
            exact ssmFromRevents_readable v
        · rw [Prog.bind_error (Sys.poll_refused rfl hl)] at h
          cases h
    | _ => cases h

namespace Object

def isOpen : Object → Bool
  | .connection c => c.isConnected
  | .acceptor a => a.isOpen

def ready : Object → Sys Bool
  | .connection c => c.hasDataAvailable
  | .acceptor a => a.hasPendingConnection

theorem isOpen_false {o : Object} : o.isOpen = false ↔ o.socket = 0 := by
  cases o with
  | connection c => exact Connection.isConnected_false
  | acceptor a => exact Acceptor.isOpen_false

theorem ready_eq (o : Object) :
    o.ready = do return (← pollSocket o.socket) &&& SocketStatus.readable != 0 := by
  cases o <;> rfl

end Object

namespace Pool
open Machine
variable {κ : Type}

/-- A use of a pool: an operation, or a query of an object. -/
inductive Use (κ : Type) where
  | act (a : Act κ)
  | query (k : κ)

def query (k : κ) : Run κ Bool := do
  match (← Prog.get).objects k with
  | some o => call o.ready
  | none => Prog.stop .cut

/-- A query of an object that is not open returns false. -/
def Truthful (p : Pool κ) : Use κ → Prop
  | .act _ => True
  | .query k => ∀ o, p.objects k = some o → o.isOpen = false → ((query k).run p).1 = .ok false

/-- ::poll reports no input while an object that is not open is queried. -/
def NoInput (p : Pool κ) : Use κ → Prop
  | .act _ => True
  | .query k => ∀ o, p.objects k = some o → o.isOpen = false → inputNext p.sys.answers = false

/-- A query that returns has made one call, of ::poll on the socket of its object, which is 0
for an object that is not open. -/
theorem query_reports {p t : Pool κ} {k : κ} {o : Object} {b : Bool} (ho : p.objects k = some o)
    (h : (query k).run p = (.ok b, t)) : b = inputNext p.sys.answers ∧ ∃ revents n,
      t.sys.calls = p.sys.calls++[.poll [⟨o.socket,POLLIN ||| POLLOUT,revents⟩] n] := by
  have hquery : (query k).run p = (call o.ready).run p := by
    unfold query
    rw [Prog.run_get_bind,ho]
  rw [hquery,Object.ready_eq] at h
  cases hr : (pollSocket o.socket).run p.sys with
  | mk r s => cases r with
    | error e =>
      rw [call_error (Prog.bind_error hr)] at h
      cases h
    | ok status =>
      obtain ⟨hstatus,hcalls⟩ := pollSocket_reports hr
      rw [call_ok (Prog.bind_ok hr)] at h
      cases h
      exact ⟨hstatus,hcalls⟩

variable [DecidableEq κ]

def use (p : Pool κ) : Use κ → Option (Pool κ)
  | .act a => step p a
  | .query k => match (query k).run p with
    | (.ok _, t) => some t
    | (.error _, _) => none

theorem truthful_iff {p t : Pool κ} (u : Use κ) (h : use p u = some t) :
    Truthful p u ↔ NoInput p u := by
  cases u with
  | act a => exact Iff.rfl
  | query k =>
    refine forall_congr' fun o => forall_congr' fun ho => forall_congr' fun _ => ?_
    cases hr : (query k).run p with
    | mk r t' => cases r with
      | error e =>
        rw [use,hr] at h
        cases h
      | ok b =>
        rw [(query_reports ho hr).1]
        exact ⟨fun h => Except.ok.inj h,fun h => congrArg Except.ok h⟩

/-- The queries of objects that are not open return false exactly if none of them finds input
on the descriptor 0. -/
theorem truthful_iff_noInput {kernel : Kernel} {answers : List Answer} {us : List (Use κ)}
    {t : Pool κ} (h : run use (initial kernel answers) us = some t) :
    Meets use Truthful (initial kernel answers) us ↔
      Meets use NoInput (initial kernel answers) us :=
  meets_congr (I := fun _ => True) (fun _ _ _ _ _ _ => trivial)
    (fun _ u _ _ h => truthful_iff u h) trivial h

/-- An acceptor that was never opened is asked while nothing is to be read from standard
input. -/
theorem truthful_idle : Meets use Truthful
    (initial ⟨[0],0,[]⟩ [.poll (.ok [POLLOUT])] : Pool Unit) [.act (.acceptor ()),.query ()] := by
  have hrun : ∃ t, run use (initial ⟨[0],0,[]⟩ [.poll (.ok [POLLOUT])] : Pool Unit)
      [.act (.acceptor ()),.query ()] = some t := ⟨_,rfl⟩
  obtain ⟨t,ht⟩ := hrun
  refine (truthful_iff_noInput ht).mpr ?_
  exact .cons rfl trivial (.cons rfl (fun _ _ _ => rfl) trivial)

/-- Standard input has a line for an acceptor that was never opened. -/
theorem standardInput_pending : ¬∀ (kernel : Kernel) (answers : List Answer) (us : List (Use Unit))
    (t : Pool Unit), run use (initial kernel answers) us = some t →
    Meets use Truthful (initial kernel answers) us := by
  intro h
  have hmeets := h ⟨[0],0,[]⟩ [.poll (.ok [POLLIN])] [.act (.acceptor ()),.query ()] _ rfl
  have hfalse := (Meets.at [Use.act (.acceptor ())] [] hmeets rfl) (.acceptor ⟨0,.empty⟩) rfl rfl
  cases hfalse

end Pool
end Yonaa
