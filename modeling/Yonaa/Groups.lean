import Yonaa.Machine
import Yonaa.SocketOps

/-! A poll group over its life, compared with polling its sockets one by one. -/
namespace Yonaa

namespace PollGroup
open Machine

/-- The kernel's outcome of one ::poll: it fails, or it returns the events of every entry. -/
abbrev Outcome := Except Errno (List Nat)

/-- The group after a poll with this outcome, and what it returned. -/
def pollWith (g : PollGroup) (o : Outcome) : Option (PollGroup × PollResult) :=
  (g.poll.run ⟨⟨[],0,[]⟩,[.poll o],[]⟩).1.toOption

def share (o : Outcome) (i : Nat) : Outcome := o.map fun revents => [revents.getD i 0]

def alone (fd : Int) (o : Outcome) (i : Nat) : Option Nat :=
  ((pollSocket fd).run ⟨⟨[],0,[]⟩,[.poll (share o i)],[]⟩).1.toOption

inductive Act where
  | add (fd : Int)
  | remove (fd : Int)
  | poll (o : Outcome)

/-- A socket is added to a group it is not in; the kernel answers for every entry. -/
def step (g : PollGroup) : Act → Option PollGroup
  | .add fd => if fd ∈ g.fds then none else some (g.addSocket fd)
  | .remove fd => some (g.removeSocket fd)
  | .poll o => (g.pollWith o).map (·.1)

/-- The result says of every member what `poll_socket` says, where this is not "none", and
nothing else. -/
structure Matches (g : PollGroup) (o : Outcome) (result : PollResult) : Prop where
  asked : ∀ pfd ∈ g.pfds, pfd.events = POLLIN ||| POLLOUT
  member : ∀ e ∈ result, e.socketFd ∈ g.fds
  status : ∀ i fd st, g.fds[i]? = some fd → alone fd o i = some st →
    (∀ e ∈ result, e.socketFd = fd → e.status = st) ∧ (st ≠ SocketStatus.none → ⟨fd,st⟩ ∈ result)

/-- The result of every poll matches. -/
def Agrees (g : PollGroup) : Act → Prop
  | .poll o => ∀ x, g.pollWith o = some x → Matches g o x.2
  | _ => True

/-- A poll succeeds, or no entry has events from before. -/
def Fresh (g : PollGroup) : Act → Prop
  | .poll (.error _) => ∀ pfd ∈ g.pfds, ssmFromRevents pfd.revents = SocketStatus.none
  | _ => True

theorem alone_error (fd : Int) (e : Errno) (i : Nat) :
    alone fd (.error e) i = some SocketStatus.none := rfl

theorem alone_ok (fd : Int) (revents : List Nat) (i : Nat) :
    alone fd (.ok revents) i = some (ssmFromRevents (revents.getD i 0)) := by
  generalize hv : revents.getD i 0 = v
  have hrun : alone fd (.ok revents) i = some
      (if ((([v].filter (· ≠ 0)).length : Nat) : Int) > 0 then ssmFromRevents v
        else SocketStatus.none) := by
    rw [← hv]
    rfl
  rw [hrun]
  by_cases h0 : v = 0
  · subst h0
    rfl
  · have hone : (([v].filter (· ≠ 0)).length : Int) > 0 := by simp [h0]
    rw [if_pos hone]

theorem pollWith_error (g : PollGroup) (e : Errno) :
    g.pollWith (.error e) = some (g, result g.pfds) := rfl

theorem pollWith_ok {g : PollGroup} {revents : List Nat} {x : PollGroup × PollResult}
    (h : g.pollWith (.ok revents) = some x) : revents.length = g.pfds.length ∧
      x = ({ g with pfds := Sys.polled g.pfds revents }, result (Sys.polled g.pfds revents)) := by
  by_cases hl : revents.length = g.pfds.length
  · have hrun := Sys.poll_answered (s := ⟨⟨[],0,[]⟩,[.poll (.ok revents)],[]⟩) rfl hl
    rw [pollWith,poll,Prog.bind_ok hrun] at h
    exact ⟨hl,(Option.some.inj h).symm⟩
  · have hrun := Sys.poll_refused (s := ⟨⟨[],0,[]⟩,[.poll (.ok revents)],[]⟩) rfl hl
    rw [pollWith,poll,Prog.bind_error hrun] at h
    cases h

/-- A group with the default configuration and distinct sockets. -/
structure Regular (g : PollGroup) : Prop where
  config : g.pfdConfig = POLLIN ||| POLLOUT
  asked : ∀ pfd ∈ g.pfds, pfd.events = POLLIN ||| POLLOUT
  distinct : g.fds.Nodup

theorem create_regular :
    Regular (create (SocketStatus.readable ||| SocketStatus.writable)) := by
  refine ⟨rfl,?_,.nil⟩
  intro pfd hpfd
  cases hpfd

theorem step_regular {g t : PollGroup} {a : Act} (h : Regular g) (ha : step g a = some t) :
    Regular t := by
  cases a with
  | add fd =>
    by_cases hfd : fd ∈ g.fds
    · simp [step,hfd] at ha
    · simp only [step,if_neg hfd,Option.some.injEq] at ha
      subst ha
      refine ⟨h.config,?_,?_⟩
      · intro pfd hpfd
        cases List.mem_append.mp hpfd with
        | inl hpfd => exact h.asked pfd hpfd
        | inr hpfd =>
          rw [List.mem_singleton.mp hpfd]
          exact h.config
      · have hfds : (g.addSocket fd).fds = g.fds++[fd] := by simp [addSocket,fds]
        rw [hfds,List.nodup_append]
        refine ⟨h.distinct,List.nodup_singleton fd,?_⟩
        intro x hx y hy hxy
        rw [List.mem_singleton.mp hy] at hxy
        exact hfd (hxy ▸ hx)
  | remove fd =>
    cases ha
    have hsub : (g.removeSocket fd).pfds.Sublist g.pfds := List.filter_sublist
    exact ⟨h.config,fun pfd hpfd => h.asked pfd (hsub.subset hpfd),
      h.distinct.sublist (hsub.map _)⟩
  | poll o =>
    obtain ⟨x,hx,rfl⟩ := Option.map_eq_some_iff.mp ha
    cases o with
    | error e =>
      cases hx
      exact h
    | ok revents =>
      obtain ⟨hl,rfl⟩ := pollWith_ok hx
      refine ⟨h.config,?_,?_⟩
      · intro pfd hpfd
        obtain ⟨old,hold,-,hevents⟩ := Sys.mem_polled hpfd
        rw [← hevents]
        exact h.asked old hold
      · have hfds : (Sys.polled g.pfds revents).map (·.fd) = g.fds := Sys.polled_fds hl
        exact (congrArg List.Nodup hfds).mpr h.distinct

theorem mem_result {pfds : List PollFd} {e : SocketStatusInfo} : e ∈ result pfds ↔
    ∃ pfd ∈ pfds, pfd.revents ≠ 0 ∧ e = ⟨pfd.fd,ssmFromRevents pfd.revents⟩ := by
  simp only [result,List.mem_map,List.mem_filter,decide_eq_true_eq]
  constructor
  · rintro ⟨pfd,⟨hpfd,h0⟩,rfl⟩
    exact ⟨pfd,hpfd,h0,rfl⟩
  · rintro ⟨pfd,hpfd,h0,rfl⟩
    exact ⟨pfd,⟨hpfd,h0⟩,rfl⟩

theorem result_status {pfds : List PollFd} (hnd : (pfds.map (·.fd)).Nodup) {pfd : PollFd}
    (hpfd : pfd ∈ pfds) : (∀ e ∈ result pfds, e.socketFd = pfd.fd →
        e.status = ssmFromRevents pfd.revents) ∧
      (ssmFromRevents pfd.revents ≠ SocketStatus.none →
        ⟨pfd.fd,ssmFromRevents pfd.revents⟩ ∈ result pfds) := by
  constructor
  · intro e he hfd
    obtain ⟨other,hother,-,rfl⟩ := mem_result.mp he
    rw [List.inj_on_of_nodup_map hnd hother hpfd hfd]
  · intro hst
    refine mem_result.mpr ⟨pfd,hpfd,?_,rfl⟩
    intro h0
    exact hst (by rw [h0]; rfl)

theorem matches_ok {g : PollGroup} {revents : List Nat} (h : Regular g)
    (hl : revents.length = g.pfds.length) :
    Matches g (.ok revents) (result (Sys.polled g.pfds revents)) := by
  have hfds : (Sys.polled g.pfds revents).map (·.fd) = g.fds := Sys.polled_fds hl
  refine ⟨h.asked,?_,?_⟩
  · intro e he
    obtain ⟨pfd,hpfd,-,rfl⟩ := mem_result.mp he
    rw [← hfds]
    exact List.mem_map_of_mem hpfd
  · intro i fd st hi hst
    rw [alone_ok] at hst
    cases hst
    rw [fds,List.getElem?_map] at hi
    obtain ⟨old,hold,rfl⟩ := Option.map_eq_some_iff.mp hi
    exact result_status (by rw [hfds]; exact h.distinct)
      (List.mem_of_getElem? (Sys.polled_at hl hold))

/-- A poll that fails reports the events of before. -/
theorem matches_error_iff {g : PollGroup} {e : Errno} (h : Regular g) :
    Matches g (.error e) (result g.pfds) ↔
      ∀ pfd ∈ g.pfds, ssmFromRevents pfd.revents = SocketStatus.none := by
  constructor
  · intro hm pfd hpfd
    obtain ⟨i,hi⟩ := List.mem_iff_getElem?.mp hpfd
    have hfd : g.fds[i]? = some pfd.fd := by simp [fds,hi]
    by_contra hst
    exact hst ((hm.status i pfd.fd _ hfd (alone_error pfd.fd e i)).1 _
      ((result_status h.distinct hpfd).2 hst) rfl)
  · intro hnone
    refine ⟨h.asked,?_,?_⟩
    · intro r hr
      obtain ⟨pfd,hpfd,-,rfl⟩ := mem_result.mp hr
      exact List.mem_map_of_mem hpfd
    · intro i fd st hi hst
      rw [alone_error] at hst
      cases hst
      refine ⟨?_,fun hne => absurd rfl hne⟩
      intro r hr hfd
      obtain ⟨pfd,hpfd,-,rfl⟩ := mem_result.mp hr
      exact hnone pfd hpfd

theorem agrees_iff_fresh {g : PollGroup} (h : Regular g) (a : Act) :
    Agrees g a ↔ Fresh g a := by
  cases a with
  | add fd => exact Iff.rfl
  | remove fd => exact Iff.rfl
  | poll o => cases o with
    | ok revents =>
      refine ⟨fun _ => trivial,?_⟩
      intro _ x hx
      obtain ⟨hl,rfl⟩ := pollWith_ok hx
      exact matches_ok h hl
    | error e =>
      constructor
      · intro hm
        exact (matches_error_iff h).mp (hm _ (pollWith_error g e))
      · intro hnone x hx
        cases hx
        exact (matches_error_iff h).mpr hnone

/-- The polls of a group agree with polls of its sockets one by one exactly if no poll fails
while an entry has a status from before. -/
theorem polls_agree_iff {as : List Act} {t : PollGroup}
    (h : run step (create (SocketStatus.readable ||| SocketStatus.writable)) as = some t) :
    Meets step Agrees (create (SocketStatus.readable ||| SocketStatus.writable)) as ↔
      Meets step Fresh (create (SocketStatus.readable ||| SocketStatus.writable)) as :=
  meets_congr (I := Regular) (fun _ _ _ hg ha _ => step_regular hg ha)
    (fun _ a _ hg _ => agrees_iff_fresh hg a) create_regular h

/-- A socket is added, has input, and a poll with an error follows a poll without events. -/
theorem agrees_quiet : Meets step Agrees
    (create (SocketStatus.readable ||| SocketStatus.writable))
    [.add 4,.poll (.ok [1]),.poll (.ok [0]),.poll (.error ⟨4,by decide⟩)] := by
  refine (polls_agree_iff (t := ⟨[⟨4,5,0⟩],5⟩) rfl).mpr ?_
  have hlast : Fresh ⟨[⟨4,5,0⟩],5⟩ (.poll (.error ⟨4,by decide⟩)) := by
    intro pfd hpfd
    rw [List.mem_singleton.mp hpfd]
    rfl
  exact .cons (t := ⟨[⟨4,5,0⟩],5⟩) rfl trivial (.cons (t := ⟨[⟨4,5,1⟩],5⟩) rfl trivial
    (.cons (t := ⟨[⟨4,5,0⟩],5⟩) rfl trivial (.cons (t := ⟨[⟨4,5,0⟩],5⟩) rfl hlast trivial)))

/-- The input of a socket is reported, and once more by the next poll, which fails. -/
theorem stale_reported : ¬∀ (as : List Act) (t : PollGroup),
    run step (create (SocketStatus.readable ||| SocketStatus.writable)) as = some t →
    Meets step Agrees (create (SocketStatus.readable ||| SocketStatus.writable)) as := by
  intro hall
  have hm := hall [.add 4,.poll (.ok [1]),.poll (.error ⟨4,by decide⟩)] ⟨[⟨4,5,1⟩],5⟩ rfl
  have hpoll := hm.at [Act.add 4,Act.poll (.ok [1])] [] rfl
  have hnone := ((hpoll _ rfl).status 0 4 0 rfl rfl).1 ⟨4,4⟩ (by decide) rfl
  cases hnone

end PollGroup
end Yonaa
