import Yonaa.Pieces
import Yonaa.Registry

/-! What the server reads: which sockets the poll group has when it is polled, and the
calls of ::recv in one pass over the events. -/
namespace Yonaa

/-- The entry at a position is open and the first one with its descriptor. -/
structure Leads (cs : List (Option ClientInfo)) (i : Nat) (c : ClientInfo) : Prop where
  entry : cs[i]? = some (some c)
  first : some c.fd ∉ (fdKeys cs).take i
  isOpen : c.conn.socket ≠ 0

/-- The poll group has only descriptors of entries, and that of a leading entry once. -/
structure Heard (cs : List (Option ClientInfo)) (g : PollGroup) : Prop where
  polled : ∀ fd ∈ g.fds, some fd ∈ fdKeys cs
  once : ∀ i c, Leads cs i c → g.fds.count c.fd ≤ 1

/-- The entries keep their descriptors, and what is open in cs' is open in cs. -/
structure Follows (cs cs' : List (Option ClientInfo)) : Prop where
  keys : fdKeys cs' = fdKeys cs
  opens : ∀ (j : Nat) (d : ClientInfo), cs'[j]? = some (some d) → d.conn.socket ≠ 0 →
    ∃ c : ClientInfo, cs[j]? = some (some c) ∧ c.conn.socket ≠ 0 ∧ c.fd = d.fd

theorem Follows.refl (cs : List (Option ClientInfo)) : Follows cs cs :=
  ⟨rfl,fun _ d hd h0 => ⟨d,hd,h0,rfl⟩⟩

theorem Follows.trans {cs cs' cs'' : List (Option ClientInfo)} (h : Follows cs cs')
    (h' : Follows cs' cs'') : Follows cs cs'' := by
  refine ⟨h'.keys.trans h.keys,?_⟩
  intro j d hd h0
  obtain ⟨c',hc',h0',hfd'⟩ := h'.opens j d hd h0
  obtain ⟨c,hc,hc0,hfd⟩ := h.opens j c' hc' h0'
  exact ⟨c,hc,hc0,hfd.trans hfd'⟩

theorem Kept.follows {w w' : World} (h : Kept w w') :
    Follows w.server.clients w'.server.clients := by
  refine ⟨h.keys,?_⟩
  intro j d hd h0
  obtain ⟨c,hc,-,hfd,hconn,-⟩ := h.entry j d hd
  exact ⟨c,hc,by rw [← hconn]; exact h0,hfd.symm⟩

theorem Follows.of_set {cs : List (Option ClientInfo)} {i : Nat} {c c' : ClientInfo}
    (hi : cs[i]? = some (some c)) (hfd : c'.fd = c.fd)
    (hsock : c'.conn.socket = c.conn.socket ∨ c'.conn.socket = 0) :
    Follows cs (cs.set i (some c')) := by
  refine ⟨keys_set hi hfd,?_⟩
  intro j d hd h0
  obtain ⟨rfl,rfl⟩ | ⟨-,hd⟩ := getElem?_set_cases hd
  · exact ⟨c,hi,by rw [← hsock.resolve_right h0]; exact h0,hfd.symm⟩
  · exact ⟨d,hd,h0,rfl⟩

open Server in
theorem Server.Handled.follows {e : SocketStatusInfo} {w : World} {r : Except Halt Bool × World}
    (h : Handled e w r) : Follows w.server.clients r.2.server.clients := by
  have hmark : ∀ {cs : List (Option ClientInfo)} {j : Nat} {d : ClientInfo}, cs[j]? = some (some d) →
      Follows cs (cs.set j (some { d with isConnected := false })) :=
    fun hd => .of_set hd rfl (Or.inl rfl)
  cases h with
  | ignored => exact .refl _
  | crash => exact .refl _
  | hungUp hf hd => exact hmark (find_found hd).1
  | rejected hf hfds hcalls hd => exact hmark (find_found hd).1
  | @closed i j flags c d ec s hf hopen hfds hcalls hd =>
    have hclosed : Follows w.server.clients (w.server.clients.set i (some { c with conn := {} })) :=
      .of_set (find_found hf).1 rfl (Or.inr rfl)
    exact hclosed.trans (hmark (find_found hd).1)
  | delivered hf hopen hne hsize hec hfds hcalls => exact .refl _
  | cut hf hcalls => exact .refl _

theorem Leads.same {cs cs' : List (Option ClientInfo)} {i : Nat} {d : ClientInfo}
    (hcs : Follows cs cs') (h : Leads cs' i d) : ∃ c, Leads cs i c ∧ c.fd = d.fd := by
  obtain ⟨c,hc,h0,hfd⟩ := hcs.opens i d h.entry h.isOpen
  exact ⟨c,⟨hc,by rw [hfd,← hcs.keys]; exact h.first,h0⟩,hfd⟩

theorem Heard.same {cs cs' : List (Option ClientInfo)} {g g' : PollGroup} (h : Heard cs g)
    (hcs : Follows cs cs') (hg : g'.fds.Sublist g.fds) : Heard cs' g' := by
  constructor
  · intro fd hfd
    rw [hcs.keys]
    exact h.polled fd (hg.subset hfd)
  · intro i d hd
    obtain ⟨c,hc,hfd⟩ := hd.same hcs
    rw [← hfd]
    exact Nat.le_trans (hg.count_le _) (h.once i c hc)

theorem mem_fdKeys {cs : List (Option ClientInfo)} {fd : Int} :
    some fd ∈ fdKeys cs ↔ ∃ c ∈ entries cs, c.fd = fd := by
  rw [← List.reduceOption_mem_iff,fdKeys,← entries_map,List.mem_map]

theorem addSocket_fds (g : PollGroup) (fd : Int) : (g.addSocket fd).fds = g.fds++[fd] := by
  simp [PollGroup.addSocket,PollGroup.fds]

theorem Heard.registered {cs : List (Option ClientInfo)} {g : PollGroup} {c : ClientInfo}
    (h : Heard cs g) (hnew : ∀ d ∈ entries cs, d.conn.socket ≠ 0 → d.fd ≠ c.fd) :
    Heard (cs++[some c]) (g.addSocket c.fd) := by
  have hk : fdKeys (cs++[some c]) = fdKeys cs++[some c.fd] := by simp [fdKeys,keys]
  have hlen : (fdKeys cs).length = cs.length := by simp [fdKeys,keys]
  constructor
  · intro fd hfd
    rw [addSocket_fds] at hfd
    rw [hk]
    cases List.mem_append.mp hfd with
    | inl hfd => exact List.mem_append_left _ (h.polled fd hfd)
    | inr hfd => exact List.mem_append_right _ (by rw [List.mem_singleton.mp hfd]; simp)
  · intro i d hd
    have hfirst := hd.first
    rw [addSocket_fds,List.count_append]
    by_cases hi : i < cs.length
    · have hentry : cs[i]? = some (some d) := by
        rw [← List.getElem?_append_left hi]
        exact hd.entry
      rw [hk,List.take_append_of_le_length (by omega)] at hfirst
      have hcount := h.once i d ⟨hentry,hfirst,hd.isOpen⟩
      have hne := hnew d (mem_of_getElem? hentry) hd.isOpen
      rw [List.count_singleton,if_neg (by simpa using Ne.symm hne)]
      exact hcount
    · have hdc : d = c := by
        have hentry := hd.entry
        rw [List.getElem?_append_right (by omega)] at hentry
        simpa using List.mem_of_getElem? hentry
      subst hdc
      rw [hk,List.take_append,List.take_of_length_le (by omega)] at hfirst
      have hzero : g.fds.count d.fd = 0 := by
        apply List.count_eq_zero.mpr
        intro hmem
        exact hfirst (List.mem_append_left _ (h.polled d.fd hmem))
      rw [hzero,Nat.zero_add]
      exact List.count_le_length

/-- The poll group at each point. In the loop of the sweep it has lost the entries between
first and i. -/
def Audible : Point × World → Prop
  | (.start,w) => w.server.pollGroup.fds = []
  | (.removing first _ i,w) => none ∈ w.server.clients.drop i ∨
    (Heard w.server.clients w.server.pollGroup ∧ ∀ (j : Nat) (c : ClientInfo), first ≤ j → j < i →
      w.server.clients[j]? = some (some c) → c.fd ∉ w.server.pollGroup.fds)
  | (.done,_) | (.dead,_) => True
  | (_,w) => Heard w.server.clients w.server.pollGroup

theorem Heard.kept {w w' : World} (h : Heard w.server.clients w.server.pollGroup)
    (hk : Kept w w') : Heard w'.server.clients w'.server.pollGroup :=
  h.same hk.follows (by rw [hk.poll])

theorem Kept.audible {p : Point} {w w' : World} (hp : p.live) (h : Kept w w')
    (hx : Audible (p,w)) : Audible (p,w') := by
  cases p with
  | top => exact Heard.kept hx h
  | accepting => exact Heard.kept hx h
  | events es => exact Heard.kept hx h
  | removing first n i =>
    obtain hn | ⟨hheard,hgone⟩ := hx
    · exact Or.inl (h.empty i hn)
    · refine Or.inr ⟨hheard.kept h,?_⟩
      intro j d hj hji hd
      obtain ⟨c,hc,-,hfd,-,-⟩ := h.entry j d hd
      rw [hfd,h.poll]
      exact hgone j c hj hji hc
  | _ => exact hp.elim

theorem Heard.take {cs : List (Option ClientInfo)} {g : PollGroup} {first : Nat}
    (h : Heard cs g) (hgone : ∀ (j : Nat) (c : ClientInfo), first ≤ j →
      cs[j]? = some (some c) → c.fd ∉ g.fds) : Heard (cs.take first) g := by
  constructor
  · intro fd hfd
    obtain ⟨c,hc,rfl⟩ := mem_fdKeys.mp (h.polled fd hfd)
    obtain ⟨j,hj⟩ := mem_entries_iff.mp hc
    have hlt : j < first := by
      by_contra hle
      exact hgone j c (by omega) hj hfd
    exact mem_fdKeys.mpr ⟨c,mem_entries_iff.mpr ⟨j,by rw [List.getElem?_take_of_lt hlt]; exact hj⟩,
      rfl⟩
  · intro i c hc
    have hlt : i < first := by
      by_contra hle
      have hentry := hc.entry
      rw [List.getElem?_take_eq_none (by omega)] at hentry
      cases hentry
    have hentry := hc.entry
    rw [List.getElem?_take_of_lt hlt] at hentry
    refine h.once i c ⟨hentry,?_,hc.isOpen⟩
    have hfirst := hc.first
    rw [fdKeys,keys,List.map_take,List.take_take,Nat.min_eq_left (by omega)] at hfirst
    exact hfirst

theorem Passed.audible {x : Point × World} (hx : Passed x) : Audible x := by
  refine Passed.induct (fun env => rfl) ?_ hx
  intro x y hx hm h
  have hbase := hx.base
  cases hm with
  | @opened w w' a hs hn hl =>
    obtain ⟨hcs,-⟩ := hbase
    have hg : w.server.pollGroup.fds = [] := h
    refine ⟨?_,?_⟩
    · simp [hs,hg]
    · intro i c hc
      have hentry := hc.entry
      simp [hs,hcs] at hentry
  | api hp ha => exact ha.kept.audible hp h
  | enter hrun => exact h
  | leave hrun => exact h
  | @refused w w' hrun hq => exact Heard.kept h (.of_clients hq.clients (by rw [hq.pollGroup]))
  | @registered w w1 fd conn p hrun hnew hconn hp hfds hs hn hl =>
    have hfresh : ∀ d ∈ entries w.server.clients, d.conn.socket ≠ 0 → d.fd ≠ fd := by
      intro d hd h0 hfd
      have hopen := hbase.2.isOpen d hd h0
      rw [(hbase.1.socket d hd).resolve_left h0,hfd] at hopen
      exact hnew.2 hopen
    have hr := Heard.registered (c := ⟨w.nextAvailableId,conn,fd,true⟩) h hfresh
    have hserver : (w1.note (.callback (.connect w.nextAvailableId))).server = w1.server := rfl
    simp only [Audible,hserver,hs]
    exact hr
  | @polled w w' es hp =>
    obtain ⟨g,hg,hs⟩ := hp.server
    exact Heard.kept h (.of_clients (by rw [hs]) (by rw [hs]; exact hg))
  | ignored => exact h
  | @rejected w s e es i j c d ec hrun hf hfds hcalls hd =>
    have hm := ApiStep.marked (w := (Net.putSys w s).withEc ec) (Server.find_found hd).1
    have hsame : Heard ((Net.putSys w s).withEc ec).server.clients
      ((Net.putSys w s).withEc ec).server.pollGroup := h
    exact hsame.kept hm.kept
  | @closed w s e es i j flags c d ec hrun hf hopen hfds hcalls hd =>
    have hc := (Server.find_found hf).1
    have hm := ApiStep.marked (w := ((Net.putSys w s).withClient i { c with conn := {} }).withEc ec)
      (Server.find_found hd).1
    have hclosed : Heard (w.server.clients.set i (some { c with conn := {} }))
        w.server.pollGroup :=
      Heard.same h (.of_set hc rfl (Or.inr rfl)) (List.Sublist.refl _)
    exact Heard.kept hclosed hm.kept
  | @delivered w s e es i flags c bytes hrun hf hopen hne hsize hec hfds hcalls => exact h
  | sweep => exact h
  | skip hflag => exact h
  | @parted w kept gone hcs hkept hgone =>
    exact Or.inr ⟨h,fun j c hj hji _ => by omega⟩
  | @moved w w' kept gap hflag hnone hsub hgap hs hn hl =>
    exact Or.inl (by simp [hs,hnone])
  | @disconnected w w1 first n i c conn hi hconn hs hn hfds hl =>
    have hserver : (w1.note (.callback (.disconnect c.id))).server = w1.server := rfl
    simp only [Audible,hserver,hs]
    obtain hnone | ⟨hheard,hgone⟩ := h
    · exact Or.inl (none_mem_drop_succ hi hnone)
    · right
      refine ⟨hheard.same (.of_set hi rfl (Or.inr hconn)) ?_,?_⟩
      · rw [removeSocket_fds]
        exact List.filter_sublist
      · intro j d hj hji hd
        rw [removeSocket_fds]
        obtain ⟨-,rfl⟩ | ⟨hne,hd⟩ := getElem?_set_cases hd
        · simp
        · exact fun hmem => hgone j d hj (by omega) hd (List.mem_of_mem_filter hmem)
  | @erased w first i =>
    have hlen : w.server.clients.length = i := by simpa using hbase.2.length
    have hdrop : none ∉ w.server.clients.drop i := by
      rw [List.drop_of_length_le (by omega)]
      exact List.not_mem_nil
    obtain hnone | ⟨hheard,hgone⟩ := h
    · exact absurd hnone hdrop
    · refine hheard.take fun j c hj hc => hgone j c hj ?_ hc
      rw [← hlen]
      exact (List.getElem?_eq_some_iff.mp hc).1
  | shut ha hs hn hl hnew hf => trivial
  | die hp hl hnew => trivial

/-! The passes of a history. -/

/-- A pass: the sockets its ::poll reported readable, and those ::recv was called on. -/
structure Pass where
  ready : List Int := []
  received : List Int := []

def Pass.step (s : Pass) (o : Observation) : Pass :=
  match o.event with
  | .sys (.poll pfds n) =>
    ⟨if n = -1 then [] else (pfds.filter fun pfd => pfd.revents &&& POLLIN ≠ 0).map (·.fd),[]⟩
  | .sys (.recv fd _ _ _ _) => { s with received := s.received++[fd] }
  | _ => s

def pass (log : List Observation) : Pass := log.foldl Pass.step {}

/-- The client is the only one that owns the socket. -/
structure Process.Owner (p : Process) (fd : Int) (c : ClientInfo) : Prop where
  owner : (entries p.server.clients).filter (fun c => c.conn.socket == fd) = [c]
  fd : c.fd = fd

/-- ::recv is called on a client's socket that was reported readable, once in a pass, and
what is passed on was just received from the client that is named. -/
def ReadsAt (log : List Observation) (o : Observation) : Prop :=
  match o.event with
  | .sys (.recv fd _ _ _ _) =>
    fd ∈ (pass log).ready ∧ fd ∉ (pass log).received ∧ ∃ c, o.state.Owner fd c
  | .callback (.dataReceive id _) => ∃ r fd size flags n data c, log.getLast? = some r ∧
    r.event = .sys (.recv fd size flags n data) ∧ r.state.Owner fd c ∧ c.id = id
  | _ => True

def ReadsReady (log : List Observation) : Prop := ∀ pre o, pre++[o] <+: log → ReadsAt pre o

def Observation.pollFails (o : Observation) : Bool :=
  match o.event with
  | .sys (.poll _ n) => n == -1
  | _ => false

def PollsSucceed (log : List Observation) : Prop := ∀ o ∈ log, o.pollFails = false

instance (log : List Observation) : Decidable (PollsSucceed log) :=
  inferInstanceAs (Decidable (∀ o ∈ log, o.pollFails = false))

theorem PollsSucceed.restrict {l l' : List Observation} (h : l <+: l') (hp : PollsSucceed l') :
    PollsSucceed l := fun o ho => hp o (h.subset ho)

def Event.isAside : Event → Prop
  | .sys (.poll _ _) | .sys (.recv _ _ _ _ _) | .callback (.dataReceive _ _) => False
  | _ => True

def Event.isUnread : Event → Prop
  | .sys (.recv _ _ _ _ _) | .callback (.dataReceive _ _) => False
  | _ => True

theorem Event.isAside.unread {e : Event} (h : e.isAside) : e.isUnread := by
  unfold isUnread
  split
  · exact h
  · exact h
  · trivial

theorem pass_snoc (log : List Observation) (o : Observation) :
    pass (log++[o]) = (pass log).step o := by simp [pass]

theorem pass_aside (log : List Observation) {new : List Observation}
    (h : ∀ o ∈ new, o.event.isAside) : pass (log++new) = pass log := by
  induction new generalizing log with
  | nil => rw [List.append_nil]
  | cons o new ih =>
    have hrest := ih (log++[o]) fun o' ho' => h o' (List.mem_cons_of_mem o ho')
    rw [List.append_assoc,List.singleton_append] at hrest
    rw [hrest,pass_snoc]
    have ho := h o List.mem_cons_self
    unfold Pass.step
    split
    next he => rw [he] at ho; exact ho.elim
    next he => rw [he] at ho; exact ho.elim
    next => rfl

theorem ReadsReady.snoc {log : List Observation} {o : Observation} (h : ReadsReady log)
    (ho : ReadsAt log o) : ReadsReady (log++[o]) := by
  intro pre o' hpre
  obtain heq | hpre := List.prefix_concat_iff.mp hpre
  · have hpair := List.append_inj' heq rfl
    have hlast : o' = o := by simpa using hpair.2
    rw [hlast,hpair.1]
    exact ho
  · exact h pre o' hpre

theorem readsAt_unread (log : List Observation) {o : Observation} (h : o.event.isUnread) :
    ReadsAt log o := by
  unfold ReadsAt
  split
  next he => rw [he] at h; exact h.elim
  next he => rw [he] at h; exact h.elim
  next => trivial

theorem ReadsReady.unread {log new : List Observation} (h : ReadsReady log)
    (hnew : ∀ o ∈ new, o.event.isUnread) : ReadsReady (log++new) := by
  induction new generalizing log with
  | nil =>
    rw [List.append_nil]
    exact h
  | cons o new ih =>
    have hrest := ih (h.snoc (readsAt_unread log (hnew o List.mem_cons_self)))
      fun o' ho' => hnew o' (List.mem_cons_of_mem o ho')
    rw [List.append_assoc] at hrest
    exact hrest

/-! One event, branch by branch. -/

namespace Server
open Prog Net

section Branches
variable {e : SocketStatusInfo} {w : World} {i : Nat} {c : ClientInfo}
  (hf : find (fun c => c.fd == e.socketFd) w.server.clients = .found i c)
include hf

theorem lookup_found :
    (lookup fun c => c.fd == e.socketFd).run w = (.ok (some (i, c)), w) := by
  obtain ⟨j,d,hd,h⟩ | ⟨hd,-⟩ | ⟨hd,-⟩ := lookup_cases (fun c => c.fd == e.socketFd) w
  · cases hf.symm.trans hd
    exact h
  · cases hf.symm.trans hd
  · cases hf.symm.trans hd

theorem handleEvent_hungUp
    (hhup : e.status &&& (SocketStatus.error ||| SocketStatus.hungUp) ≠ 0) :
    ∃ j d, d.id = c.id ∧ (handleEvent e).run w = (.ok false, w.mark j d) := by
  obtain ⟨j,d,hd,-,hr⟩ := removeClient_found (find_found hf).1 rfl (find_passed hf)
  refine ⟨j,d,by simpa using (find_found hd).2,?_⟩
  unfold handleEvent clientInfoFromNativeSocket
  rw [bind_ok (lookup_found hf)]
  dsimp only
  rw [if_pos hhup,bind_ok hr]
  rfl

theorem handleEvent_unreadable
    (hhup : e.status &&& (SocketStatus.error ||| SocketStatus.hungUp) = 0)
    (hread : e.status &&& SocketStatus.readable = 0) : (handleEvent e).run w = (.ok false, w) := by
  unfold handleEvent clientInfoFromNativeSocket
  rw [bind_ok (lookup_found hf)]
  dsimp only
  rw [if_neg (by simpa using hhup),if_neg (by simpa using hread)]
  rfl

theorem handleEvent_shut
    (hhup : e.status &&& (SocketStatus.error ||| SocketStatus.hungUp) = 0)
    (hread : e.status &&& SocketStatus.readable ≠ 0) (hc : c.conn.socket = 0) :
    ∃ j d, (handleEvent e).run w =
      (.ok false, ((putSys w (sysPart w)).withEc (.assign 1)).mark j d) := by
  have hshut : c.conn.isConnected = false := by simp [Connection.isConnected,hc]
  have hrun := Connection.receive_closed Connection.maxBufferSize w.server.ec 0 hshut (sysPart w)
  obtain ⟨j,d,-,hrem⟩ := removeClient_served c.conn (.assign 1) (sysPart w) (find_found hf).1
    (find_passed hf)
  refine ⟨j,d,?_⟩
  unfold handleEvent clientInfoFromNativeSocket
  rw [bind_ok (lookup_found hf)]
  dsimp only
  rw [if_neg (by simpa using hhup),if_pos hread,run_server_bind,bind_ok (sys_ok hrun)]
  dsimp only
  rw [bind_ok (run_setClient _ _ _),bind_ok (run_setEc _ _),if_pos (by rfl),bind_ok hrem,
    withClient_self (find_found hf).1]
  rfl

/-- ::recv is called only for a readable status on an open connection. -/
theorem handleEvent_recv {o : Observation} {new : List Observation}
    (hlog : ((handleEvent e).run w).2.log = w.log++o::new) (ho : ∀ id, o.event ≠ .marked id) :
    c.conn.socket ≠ 0 ∧ e.status &&& SocketStatus.readable ≠ 0 := by
  have hnone : ∀ w1 : World, w1.log = w.log → w1.log ≠ w.log++o::new := by
    intro w1 hl h
    rw [hl] at h
    exact absurd (List.self_eq_append_right.mp h) (List.cons_ne_nil o new)
  have hmark : ∀ (w1 : World) (j : Nat) (d : ClientInfo), w1.log = w.log →
      (w1.mark j d).log ≠ w.log++o::new := by
    intro w1 j d hl h
    rw [World.mark_log,hl] at h
    cases List.append_cancel_left h
    exact ho d.id rfl
  by_cases hhup : e.status &&& (SocketStatus.error ||| SocketStatus.hungUp) = 0
  · by_cases hread : e.status &&& SocketStatus.readable = 0
    · rw [handleEvent_unreadable hf hhup hread] at hlog
      exact absurd hlog (hnone w rfl)
    · refine ⟨?_,hread⟩
      intro hc
      obtain ⟨j,d,hr⟩ := handleEvent_shut hf hhup hread hc
      rw [hr] at hlog
      exact absurd hlog (hmark _ j d (by simp))
  · obtain ⟨j,d,-,hr⟩ := handleEvent_hungUp hf hhup
    rw [hr] at hlog
    exact absurd hlog (hmark w j d rfl)

end Branches

/-- What an event does to the reads: nothing, or ::recv is called on the socket of the client
with the descriptor, and what it returned is passed on at most. -/
inductive Asked (e : SocketStatusInfo) (w w' : World) : Prop where
  | unread {new : List Observation} (hlog : w'.log = w.log++new)
      (hnew : ∀ o ∈ new, o.event.isAside) : Asked e w w'
  | read {i : Nat} {c : ClientInfo} {size flags : Nat} {n : Int} {bytes : List Byte}
      {new : List Observation}
      (hf : find (fun c => c.fd == e.socketFd) w.server.clients = .found i c)
      (hopen : c.conn.socket ≠ 0) (hread : e.status &&& SocketStatus.readable ≠ 0)
      (hlog : w'.log =
        w.log++⟨.sys (.recv c.conn.socket size flags n bytes),w.toProcess⟩::new)
      (hnew : (∀ o ∈ new, o.event.isAside) ∨
        ∃ p data, new = [⟨.callback (.dataReceive c.id data),p⟩]) : Asked e w w'

theorem handleEvent_asked (e : SocketStatusInfo) (w : World) :
    Asked e w ((handleEvent e).run w).2 := by
  have hread : ∀ {i : Nat} {c : ClientInfo} {size flags : Nat} {n : Int} {bytes : List Byte}
      {new : List Observation}, find (fun c => c.fd == e.socketFd) w.server.clients = .found i c →
      ((handleEvent e).run w).2.log =
        w.log++⟨.sys (.recv c.conn.socket size flags n bytes),w.toProcess⟩::new →
      ((∀ o ∈ new, o.event.isAside) ∨
        ∃ p data, new = [⟨.callback (.dataReceive c.id data),p⟩]) →
      Asked e w ((handleEvent e).run w).2 := by
    intro i c size flags n bytes new hf hlog hnew
    obtain ⟨hopen,hread⟩ := handleEvent_recv hf hlog fun id h => by cases h
    exact .read hf hopen hread hlog hnew
  have hstay : Asked e w w := .unread (List.append_nil _).symm (by simp)
  have h := handleEvent_cases e w
  generalize (handleEvent e).run w = r at h hread ⊢
  cases h with
  | ignored => exact hstay
  | crash => exact hstay
  | @hungUp i j c d hf hd =>
    exact .unread (w.mark_log j d) (List.forall_mem_singleton.mpr trivial)
  | @rejected i j c d ec s hf hfds hcalls hd =>
    obtain hcalls | ⟨flags,n,bytes,-,hcalls⟩ := hcalls
    · have hlog : (((putSys w s).withEc ec).mark j d).log = w.log++
          [⟨.marked d.id,(((putSys w s).withEc ec).mark j d).toProcess⟩] := by simp [hcalls]
      exact .unread hlog (List.forall_mem_singleton.mpr trivial)
    · have hlog : (((putSys w s).withEc ec).mark j d).log = w.log++
          ⟨.sys (.recv c.conn.socket Connection.maxBufferSize flags n bytes),w.toProcess⟩::
          [⟨.marked d.id,(((putSys w s).withEc ec).mark j d).toProcess⟩] := by simp [hcalls]
      exact hread hf hlog (Or.inl (List.forall_mem_singleton.mpr trivial))
  | @closed i j flags c d ec s hf hopen hfds hcalls hd =>
    have hlog : ((((putSys w s).withClient i { c with conn := {} }).withEc ec).mark j d).log =
        w.log++⟨.sys (.recv c.conn.socket Connection.maxBufferSize flags 0 []),w.toProcess⟩::
        [⟨.sys (.close c.conn.socket),w.toProcess⟩,⟨.marked d.id,
          ((((putSys w s).withClient i { c with conn := {} }).withEc ec).mark j d).toProcess⟩] := by
      simp [hcalls]
    exact hread hf hlog (Or.inl (List.forall_mem_cons.mpr
      ⟨trivial,List.forall_mem_singleton.mpr trivial⟩))
  | @delivered i flags c bytes s hf hopen hne hsize hec hfds hcalls =>
    have hlog : ((putSys w s).note (.callback (.dataReceive c.id (.ofList bytes)))).log =
        w.log++⟨.sys (.recv c.conn.socket Connection.maxBufferSize flags bytes.length bytes),
          w.toProcess⟩::[⟨.callback (.dataReceive c.id (.ofList bytes)),
          (putSys w s).toProcess⟩] := by simp [hcalls]
    exact hread hf hlog (Or.inr ⟨_,_,rfl⟩)
  | @cut i c s hf hcalls =>
    obtain hcalls | ⟨flags,hcalls⟩ := hcalls
    · have hlog : (putSys w s).log = w.log++[] := by simp [hcalls]
      exact .unread hlog (by simp)
    · have hlog : (putSys w s).log = w.log++
          ⟨.sys (.recv c.conn.socket Connection.maxBufferSize flags 0 []),w.toProcess⟩::[] := by
        simp [hcalls]
      exact hread hf hlog (Or.inl (by simp))

end Server

/-! The reads of a step. -/

open Server in
theorem Server.Messaged.aside {w : World} {msg : Buffer} {id : ClientId}
    {r : Except Halt Unit × World} (h : Messaged msg id w r) :
    ∃ new, r.2.log = w.log++new ∧ ∀ o ∈ new, o.event.isAside := by
  obtain ⟨new,hlog,hnew⟩ := h.recorded
  refine ⟨_,hlog,List.forall_mem_cons.mpr ⟨trivial,?_⟩⟩
  intro o ho
  have hkind := hnew o ho
  unfold isMessaging at hkind
  split at hkind
  next he => rw [he]; trivial
  next he => rw [he]; trivial
  next he => rw [he]; trivial
  next he => rw [he]; trivial
  next => exact hkind.elim

open Server in
theorem Action.aside {w : World} {r : Except Halt Unit × World} (h : Action w r) :
    ∃ new, r.2.log = w.log++new ∧ ∀ o ∈ new, o.event.isAside := by
  cases h with
  | inputs hs ss => exact ⟨[],(List.append_nil _).symm,by simp⟩
  | stop => exact ⟨_,w.halted_log,List.forall_mem_singleton.mpr trivial⟩
  | message msg id => exact (messageClient_cases msg id w).aside
  | remove id =>
    have hc := removeClient_cases id w
    generalize (removeClient id).run w = r at hc ⊢
    cases hc with
    | missing h => exact ⟨[],(List.append_nil _).symm,by simp⟩
    | crash h => exact ⟨[],(List.append_nil _).symm,by simp⟩
    | marked h => exact ⟨_,w.mark_log _ _,List.forall_mem_singleton.mpr trivial⟩

theorem Action.follows {w : World} {r : Except Halt Unit × World} (h : Action w r) :
    Follows w.server.clients r.2.server.clients := by
  have hsteps := h.steps
  generalize r.2 = w' at hsteps ⊢
  induction hsteps with
  | refl => exact .refl _
  | tail _ hs ih => exact ih.trans hs.kept.follows

open Server in
theorem Server.Admitted.unread {w : World} {r : Except Halt Bool × World} (h : Admitted w r) :
    ∃ new, r.2.log = w.log++new ∧ ∀ o ∈ new, o.event.isUnread := by
  cases h with
  | refused hq hlog =>
    obtain hlog | ⟨p,-,hlog⟩ := hlog
    · exact ⟨[],by rw [hlog,List.append_nil],by simp⟩
    · exact ⟨_,hlog,List.forall_mem_singleton.mpr trivial⟩
  | dropped hq hnew hp hec hlog hcloses =>
    refine ⟨_,hlog,List.forall_mem_cons.mpr ⟨trivial,?_⟩⟩
    obtain rfl | ⟨q,rfl⟩ := hcloses
    · simp
    · exact List.forall_mem_singleton.mpr trivial
  | registered hnew hconn hp hec hfds hserver hnext hlog =>
    refine ⟨_,by rw [World.note_log,hlog,List.append_assoc],?_⟩
    exact List.forall_mem_cons.mpr ⟨trivial,List.forall_mem_singleton.mpr trivial⟩
  | cut hlog =>
    obtain hlog | ⟨fd,p,-,hlog⟩ := hlog
    · exact ⟨[],by rw [hlog,List.append_nil],by simp⟩
    · exact ⟨_,hlog,List.forall_mem_singleton.mpr trivial⟩

theorem Event.isPlain.unread {e : Event} (h : e.isPlain) : e.isUnread := by
  unfold isUnread
  split
  · exact h
  · exact h
  · trivial

theorem Piece.unread {x y : Point × World} (h : Piece x y) (hx : ∀ es, x.1 ≠ .events es) :
    ∃ new, y.2.log = x.2.log++new ∧ ∀ o ∈ new, o.event.isUnread := by
  cases h with
  | plain hlog hnew hstay => exact ⟨_,hlog,fun o ho => (hnew o ho).unread⟩
  | accepted h => exact h.unread
  | messaged hp h =>
    obtain ⟨new,hlog,hnew⟩ := h.aside
    exact ⟨new,hlog,fun o ho => (hnew o ho).unread⟩
  | received hrun h => exact absurd rfl (hx _)

/-! The events of a pass. -/

/-- The events still to be handled: a readable one is for a socket the ::poll of the pass
reported readable, and no client is to be read twice. -/
structure Due (es : PollResult) (w : World) : Prop where
  ready : ∀ e ∈ es, e.status &&& SocketStatus.readable ≠ 0 → e.socketFd ∈ (pass w.log).ready
  once : ∀ i c, Leads w.server.clients i c →
    (es.map (·.socketFd)).count c.fd+(pass w.log).received.count c.fd ≤ 1

theorem Due.aside {es : PollResult} {w w' : World} {new : List Observation} (h : Due es w)
    (hcs : Follows w.server.clients w'.server.clients) (hlog : w'.log = w.log++new)
    (hnew : ∀ o ∈ new, o.event.isAside) : Due es w' := by
  have hpass : pass w'.log = pass w.log := by rw [hlog,pass_aside _ hnew]
  constructor
  · rw [hpass]
    exact h.ready
  · intro i d hd
    obtain ⟨c,hc,hfd⟩ := hd.same hcs
    rw [hpass,← hfd]
    exact h.once i c hc

theorem Due.tail {e : SocketStatusInfo} {es : PollResult} {w : World} (h : Due (e::es) w) :
    Due es w := by
  constructor
  · exact fun e' he' => h.ready e' (List.mem_cons_of_mem e he')
  · intro i c hc
    have hcount := h.once i c hc
    rw [List.map_cons,List.count_cons] at hcount
    omega

open Server in
theorem Leads.of_find {fd : Int} {cs : List (Option ClientInfo)} {i : Nat} {c : ClientInfo}
    (hf : find (fun c => c.fd == fd) cs = .found i c) (hc : c.conn.socket ≠ 0) :
    Leads cs i c ∧ c.fd = fd := by
  obtain ⟨hentry,hfd⟩ := find_found hf
  have hfd : c.fd = fd := by simpa using hfd
  refine ⟨⟨hentry,?_,hc⟩,hfd⟩
  intro hmem
  rw [fdKeys,keys,← List.map_take] at hmem
  obtain ⟨x,hx,hk⟩ := List.mem_map.mp hmem
  obtain ⟨d,rfl,hd⟩ := find_first hf x hx
  have hsame : d.fd = c.fd := by simpa using hk
  rw [hsame,hfd] at hd
  simp at hd

theorem owner_of_apart {cs : List ClientInfo} {c : ClientInfo} (h : cs.Pairwise Apart)
    (hc : c ∈ cs) (h0 : c.conn.socket ≠ 0) :
    cs.filter (fun d => d.conn.socket == c.conn.socket) = [c] := by
  induction h with
  | nil => exact absurd hc List.not_mem_nil
  | @cons d cs hd hcs ih =>
    rw [List.filter_cons]
    cases List.mem_cons.mp hc with
    | inl hc =>
      subst hc
      rw [if_pos (beq_self_eq_true _),List.filter_eq_nil_iff.mpr]
      intro d' hd'
      simpa using Ne.symm (hd d' hd' h0)
    | inr hc =>
      have hne : d.conn.socket ≠ c.conn.socket := fun he => (hd c hc (by rw [he]; exact h0)) he
      rw [if_neg (by simpa using hne)]
      exact ih hc

theorem Server.Asked.due {e : SocketStatusInfo} {es : PollResult} {w w' : World}
    (h : Asked e w w') (hs : Sound w) (hcs : Follows w.server.clients w'.server.clients)
    (hdue : Due (e::es) w) (hready : ReadsReady w.log) : Due es w' ∧ ReadsReady w'.log := by
  cases h with
  | @unread new hlog hnew =>
    refine ⟨hdue.tail.aside hcs hlog hnew,?_⟩
    rw [hlog]
    exact hready.unread fun o ho => (hnew o ho).unread
  | @read i c size flags n bytes new hf hopen hread hlog hnew =>
    obtain ⟨hleads,hfd⟩ := Leads.of_find hf hopen
    have hc : c ∈ entries w.server.clients := mem_of_getElem? hleads.entry
    have hsock : c.conn.socket = c.fd := (hs.socket c hc).resolve_left hopen
    have howner : w.toProcess.Owner c.conn.socket c := ⟨owner_of_apart hs.apart hc hopen,hsock.symm⟩
    have hcount := hdue.once i c hleads
    rw [List.map_cons,List.count_cons,if_pos (by simp [hfd])] at hcount
    have hat : ReadsAt w.log ⟨.sys (.recv c.conn.socket size flags n bytes),w.toProcess⟩ := by
      refine ⟨?_,?_,c,howner⟩
      · rw [hsock,hfd]
        exact hdue.ready e List.mem_cons_self hread
      · rw [hsock]
        exact List.count_eq_zero.mp (by omega)
    have hrecv := hready.snoc hat
    have hpass : pass w'.log = { pass w.log with
        received := (pass w.log).received++[c.conn.socket] } := by
      rw [hlog,List.append_cons]
      obtain hnew | ⟨p,data,rfl⟩ := hnew
      · rw [pass_aside _ hnew,pass_snoc]
        rfl
      · rw [pass_snoc,pass_snoc]
        rfl
    refine ⟨⟨?_,?_⟩,?_⟩
    · rw [hpass]
      exact hdue.tail.ready
    · intro j d hd
      obtain ⟨d',hd',hdfd⟩ := hd.same hcs
      have hcount := hdue.once j d' hd'
      rw [List.map_cons,List.count_cons] at hcount
      rw [hpass,List.count_append,List.count_singleton,hsock,hfd,← hdfd]
      omega
    · rw [hlog,List.append_cons]
      obtain hnew | ⟨p,data,rfl⟩ := hnew
      · exact hrecv.unread fun o ho => (hnew o ho).unread
      · exact hrecv.snoc ⟨_,_,_,_,_,_,c,List.getLast?_concat,rfl,howner,rfl⟩

open Server in
theorem pollClients_result {w w' : World} {es : PollResult}
    (h : pollClients.run w = (.ok es,w')) :
    ∃ pfds n, w'.log = w.log++[⟨.sys (.poll pfds n),w.toProcess⟩] ∧
      pfds.map (·.fd) = w.server.pollGroup.fds ∧ es = PollGroup.result pfds ∧
      w'.server.clients = w.server.clients := by
  unfold pollClients PollGroup.poll at h
  rw [run_server_bind] at h
  obtain ⟨pfds,n,s,hr,hfd,hf,hc,-⟩ | ⟨s,hr,hs⟩ :=
    Sys.poll_cases w.server.pollGroup.pfds (Net.sysPart w)
  · rw [Prog.bind_ok (sys_ok (Prog.bind_ok hr))] at h
    cases h
    exact ⟨pfds,n,by simp [hc],hfd,rfl,rfl⟩
  · rw [Prog.bind_error (sys_error (Prog.bind_error hr))] at h
    cases h

theorem result_sockets (pfds : List PollFd) :
    ((PollGroup.result pfds).map (·.socketFd)).Sublist (pfds.map (·.fd)) := by
  rw [PollGroup.result,List.map_map]
  exact List.filter_sublist.map _

theorem result_readable {pfds : List PollFd} {e : SocketStatusInfo}
    (he : e ∈ PollGroup.result pfds) (hread : e.status &&& SocketStatus.readable ≠ 0) :
    e.socketFd ∈ (pfds.filter fun pfd => pfd.revents &&& POLLIN ≠ 0).map (·.fd) := by
  obtain ⟨pfd,hpfd,rfl⟩ := List.mem_map.mp he
  have hin : pfd.revents &&& POLLIN ≠ 0 := by
    have hset : (ssmFromRevents pfd.revents &&& SocketStatus.readable != 0) = true :=
      bne_iff_ne.mpr hread
    rw [ssmFromRevents_readable] at hset
    exact bne_iff_ne.mp hset
  exact List.mem_map.mpr ⟨pfd,List.mem_filter.mpr ⟨List.mem_of_mem_filter hpfd,by simpa using hin⟩,
    rfl⟩

open Server in
/-- A pass starts with the result of its ::poll. -/
theorem Due.polled {w w' : World} {es : PollResult} (h : pollClients.run w = (.ok es,w'))
    (hheard : Heard w.server.clients w.server.pollGroup) (hpoll : PollsSucceed w'.log) :
    Due es w' := by
  obtain ⟨pfds,n,hlog,hfds,rfl,hcs⟩ := pollClients_result h
  have hn : n ≠ -1 := by
    have hok := hpoll ⟨.sys (.poll pfds n),w.toProcess⟩ (by rw [hlog]; simp)
    simpa [Observation.pollFails] using hok
  have hpass : pass w'.log =
      ⟨(pfds.filter fun pfd => pfd.revents &&& POLLIN ≠ 0).map (·.fd),[]⟩ := by
    rw [hlog,pass_snoc,Pass.step]
    simp [hn]
  constructor
  · intro e he hread
    rw [hpass]
    exact result_readable he hread
  · intro i c hc
    rw [hcs] at hc
    have hcount := (result_sockets pfds).count_le c.fd
    rw [hfds] at hcount
    have hgroup := hheard.once i c hc
    rw [hpass,List.count_nil]
    omega

def Scheduled : Point × World → Prop
  | (.events es,w) => Due es w
  | _ => True

theorem Scheduled.dead {α : Type} {p : Point} {w : World} {r : Except Halt α} (h : Scheduled (p,w)) :
    Scheduled (p.orDead r,w) := by
  cases r with
  | ok a => exact h
  | error e => trivial

theorem moves_log {x y : Point × World} (h : Relation.ReflTransGen Move x y) :
    x.2.log <+: y.2.log := by
  induction h with
  | refl => exact List.prefix_refl _
  | tail _ hm ih => exact ih.trans hm.log

/-- Between polls that succeed, what a run reads is ready. -/
theorem Reachable.scheduled {x : Point × World} (hx : Reachable x)
    (hpoll : PollsSucceed x.2.log) : Scheduled x ∧ ReadsReady x.2.log := by
  revert hpoll
  refine hx.induct (I := fun x => PollsSucceed x.2.log → Scheduled x ∧ ReadsReady x.2.log) ?_ ?_
  · intro env _
    refine ⟨trivial,?_⟩
    intro pre o hpre
    have hnil := List.prefix_nil.mp hpre
    simp at hnil
  intro x y hx hs ih hpoll
  have hbase := hx.passed.base
  have hpiece := hs.piece hbase
  obtain ⟨hsched,hready⟩ := ih (hpoll.restrict (moves_log (hs.moves hbase)))
  have hother : (∀ es, x.1 ≠ .events es) → ReadsReady y.2.log := by
    intro hne
    obtain ⟨new,hlog,hnew⟩ := hpiece.unread hne
    rw [hlog]
    exact hready.unread hnew
  cases hs with
  | @action p w r hp ha =>
    obtain ⟨new,hlog,hnew⟩ := ha.aside
    refine ⟨?_,?_⟩
    · apply Scheduled.dead
      cases p with
      | events es => exact Due.aside hsched ha.follows hlog hnew
      | _ => trivial
    · change ReadsReady r.2.log
      rw [hlog]
      exact hready.unread fun o ho => (hnew o ho).unread
  | @event w e es hrun =>
    obtain ⟨hdue,hreads⟩ := (Server.handleEvent_asked e w).due hbase.1
      (Server.handleEvent_cases e w).follows hsched hready
    exact ⟨Scheduled.dead (p := .events es) hdue,hreads⟩
  | @poll w w' es hrun =>
    exact ⟨Due.polled hrun hx.passed.audible hpoll,hother fun es he => by cases he⟩
  | @sweep w es => exact ⟨trivial,hready.unread (List.forall_mem_singleton.mpr trivial)⟩
  | opening => exact ⟨Scheduled.dead (p := .top) trivial,hother fun es he => by cases he⟩
  | pending h => exact ⟨Scheduled.dead (p := .accepting) trivial,hother fun es he => by cases he⟩
  | accept h => exact ⟨Scheduled.dead (p := .accepting) trivial,hother fun es he => by cases he⟩
  | disconnect =>
    exact ⟨Scheduled.dead (p := .removing _ _ _) trivial,hother fun es he => by cases he⟩
  | erase => exact ⟨Scheduled.dead (p := .top) trivial,hother fun es he => by cases he⟩
  | closing => exact ⟨Scheduled.dead (p := .done) trivial,hother fun es he => by cases he⟩
  | _ => exact ⟨trivial,hother fun es he => by cases he⟩

/-- As long as ::poll does not fail, the server calls ::recv only on sockets that the ::poll
of the pass reported readable, at most once on each, and passes the bytes on under the id of
the client that owns the socket. -/
theorem Environment.reads_ready (env : Environment) (fuel : Nat)
    (hpoll : PollsSucceed (env.log fuel)) : ReadsReady (env.log fuel) := by
  obtain ⟨p,hp,-⟩ := env.reachable fuel
  exact (hp.scheduled hpoll).2

theorem Environment.reads_ready_broadcast :
    PollsSucceed (broadcast.log 5) ∧ ReadsReady (broadcast.log 5) := by
  have hpoll : PollsSucceed (broadcast.log 5) := by decide +kernel
  exact ⟨hpoll,broadcast.reads_ready 5 hpoll⟩

end Yonaa
