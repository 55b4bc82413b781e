import Yonaa.Callbacks
import Yonaa.Messages

/-! The sweep over the clients: which lists it handles as intended, and which make it
dereference an empty pointer. -/
namespace Yonaa

def Event.closes : Event → Option Int
  | .sys (.close fd) => some fd
  | _ => none

def gone (cs : List ClientInfo) : List ClientInfo := cs.filter fun c => !c.isConnected

def MarkedLast (cs : List ClientInfo) : Prop :=
  cs.Pairwise fun c d => d.isConnected = true → c.isConnected = true

instance (cs : List ClientInfo) : Decidable (MarkedLast cs) :=
  inferInstanceAs (Decidable (cs.Pairwise _))

theorem MarkedLast.split {cs : List ClientInfo} (h : MarkedLast cs) :
    cs = cs.filter (·.isConnected)++gone cs := by
  induction cs with
  | nil => rfl
  | cons c cs ih =>
    obtain ⟨hc,hcs⟩ := List.pairwise_cons.mp h
    by_cases hconn : c.isConnected = true
    · have hg : gone (c::cs) = gone cs := List.filter_cons_of_neg (by simp [hconn])
      rw [List.filter_cons_of_pos (by simp [hconn]),hg,List.cons_append,← ih hcs]
    · have hnone : ∀ d ∈ cs, ¬d.isConnected = true := fun d hd hd' => hconn (hc d hd hd')
      have hfilter : (c::cs).filter (·.isConnected) = [] :=
        List.filter_eq_nil_iff.mpr (List.forall_mem_cons.mpr ⟨hconn,hnone⟩)
      have hg : gone (c::cs) = c::cs := by
        refine List.filter_eq_self.mpr ?_
        intro d hd
        have hd' := List.filter_eq_nil_iff.mp hfilter d hd
        simpa using hd'
      rw [hfilter,hg,List.nil_append]

theorem MarkedLast.of_split {kept marked : List ClientInfo}
    (hkept : ∀ c ∈ kept, c.isConnected = true) (hmarked : ∀ c ∈ marked, c.isConnected = false) :
    MarkedLast (kept++marked) := by
  refine List.pairwise_append.mpr ⟨?_,?_,fun c hc _ _ _ => hkept c hc⟩
  · exact List.Pairwise.imp_of_mem (fun hc _ _ _ => hkept _ hc)
      (List.pairwise_of_forall fun _ _ => trivial)
  · refine List.Pairwise.imp_of_mem (fun _ hd _ hd' => ?_)
      (List.pairwise_of_forall fun _ _ => trivial)
    rw [hmarked _ hd] at hd'
    cases hd'

/-- The answers to ::shutdown and ::close for connections that are closed in turn. -/
def closings (cl : List (Except Errno Unit × Except Errno Unit)) : List Answer :=
  cl.flatMap fun p => [.shutdown p.1,.close p.2]

theorem Connection.disconnect_closings {c : Connection}
    {p : Except Errno Unit × Except Errno Unit} {cl : List (Except Errno Unit × Except Errno Unit)}
    {rest : List Answer} {s : SysState} (ha : s.answers = closings (p::cl)++rest) :
    ∃ conn s', c.disconnect.run s = (.ok conn, s') ∧ conn.socket = 0 ∧
      (∃ cl', cl.length ≤ cl'.length ∧ s'.answers = closings cl'++rest) ∧
      s'.calls = s.calls++if c.isConnected then [.close c.socket] else [] := by
  by_cases hc : c.isConnected = true
  · refine ⟨_,_,disconnect_answered hc ha,rfl,⟨cl,Nat.le_refl _,rfl⟩,?_⟩
    rw [if_pos hc]
  · have hc' : c.isConnected = false := by simpa using hc
    refine ⟨c,s,disconnect_closed hc' s,by simpa [isConnected] using hc',
      ⟨p::cl,Nat.le_succ _,ha⟩,?_⟩
    rw [if_neg hc,List.append_nil]

namespace Server
open Net Prog

/-! The loop of `std::remove_if`. -/

theorem removeIfLoop_connected {ks : List ClientInfo} (hks : ∀ c ∈ ks, c.isConnected = true)
    (kept rest : List (Option ClientInfo)) (w : World) :
    (removeIfLoop kept [] (ks.map some++rest)).run w =
      (removeIfLoop (kept++ks.map some) [] rest).run w := by
  induction ks generalizing kept with
  | nil => simp
  | cons c ks ih =>
    obtain ⟨hc,hks⟩ := List.forall_mem_cons.mp hks
    simp only [List.map_cons,List.cons_append,removeIfLoop,hc,Bool.not_true,Bool.false_eq_true,
      if_false]
    rw [ih hks,List.append_assoc]
    rfl

theorem removeIfLoop_marked {gs : List ClientInfo} (hgs : ∀ c ∈ gs, c.isConnected = false)
    (kept gap : List (Option ClientInfo)) (w : World) :
    (removeIfLoop kept gap (gs.map some)).run w = (.ok (kept,gap++gs.map some), w) := by
  induction gs generalizing gap with
  | nil => simp [removeIfLoop]
  | cons c gs ih =>
    obtain ⟨hc,hgs⟩ := List.forall_mem_cons.mp hgs
    simp only [List.map_cons,removeIfLoop,hc,Bool.not_false,if_true]
    rw [ih hgs,List.append_assoc]
    rfl

theorem removeDisconnected_last {ks gs : List ClientInfo} {w : World}
    (hcs : w.server.clients = ks.map some++gs.map some) (hks : ∀ c ∈ ks, c.isConnected = true)
    (hgs : ∀ c ∈ gs, c.isConnected = false) :
    removeDisconnected.run w = (.ok ks.length, w) := by
  have hloop : (removeIfLoop [] [] w.server.clients).run w =
      (.ok (ks.map some,gs.map some), w) := by
    rw [hcs,removeIfLoop_connected hks,List.nil_append,removeIfLoop_marked hgs,List.nil_append]
  have hself : (w.withServer fun s => { s with clients := ks.map some++gs.map some }) = w := by
    simp only [World.withServer,← hcs]
  unfold removeDisconnected
  rw [run_server_bind,bind_ok hloop]
  dsimp only
  rw [bind_ok (run_setServer _ _),hself,List.length_map]
  rfl

/-! The loop over the entries behind the returned position. -/

theorem runHandler_idle {hs : List (List ApiCall)} {w : World} (h : w.handlers = []::hs) :
    runHandler.run w = (.ok (), { w with handlers := hs }) := by
  unfold runHandler
  rw [bind_ok (nextHandler_cons h)]
  rfl

/-- The loop is at position i: the entries gs are ahead, the handlers do nothing, and the
kernel answers every call. -/
structure Leaving (gs : List ClientInfo) (i : Nat) (w : World) : Prop where
  drop : w.server.clients.drop i = gs.map some
  idle : ∀ h ∈ w.handlers, h = []
  handled : gs.length ≤ w.handlers.length
  answered : ∃ cl rest, gs.length ≤ cl.length ∧ w.answers = closings cl++rest

/-- What the loop did to the entries gs from position i on. -/
structure Left (gs : List ClientInfo) (i : Nat) (w w' : World) : Prop where
  front : w'.server.clients.take i = w.server.clients.take i
  behind : ∀ e ∈ w'.server.clients.drop i, ∃ c, e = some c ∧ c.conn.socket = 0
  polled : w'.server.pollGroup.fds =
    w.server.pollGroup.fds.filter fun fd => decide (∀ c ∈ gs, c.fd ≠ fd)
  log : ∃ new, w'.log = w.log++new ∧ callbacks new = gs.map (fun c => .disconnect c.id) ∧
    observed Event.closes new = (gs.filter (·.conn.isConnected)).map (·.conn.socket)

theorem observed_closes (fd : Int) (b : Bool) (p : Process) : observed Event.closes
    ((if b then [SysCall.close fd] else []).map fun c => ⟨.sys c,p⟩) = if b then [fd] else [] := by
  cases b <;> rfl

theorem disconnectFrom_step {c : ClientInfo} {gs : List ClientInfo} {i : Nat} {w : World}
    (h : Leaving (c::gs) i w) :
    ∃ w1 conn new, (disconnectFrom (gs.length+1) i).run w =
        (disconnectFrom gs.length (i+1)).run w1 ∧ Leaving gs (i+1) w1 ∧ conn.socket = 0 ∧
      w1.server.clients = w.server.clients.set i (some { c with conn := conn }) ∧
      w1.server.pollGroup = w.server.pollGroup.removeSocket c.fd ∧ w1.log = w.log++new ∧
      callbacks new = [.disconnect c.id] ∧
      observed Event.closes new = if c.conn.isConnected then [c.conn.socket] else [] := by
  obtain ⟨hi,htail⟩ := drop_entry h.drop
  obtain ⟨cl,rest,hlen,ha⟩ := h.answered
  obtain ⟨p,cl,rfl⟩ := List.exists_cons_of_length_pos (Nat.lt_of_lt_of_le (Nat.succ_pos _) hlen)
  obtain ⟨hs0,hs,hhs⟩ := List.exists_cons_of_length_pos
    (Nat.lt_of_lt_of_le (Nat.succ_pos gs.length) h.handled)
  have hidle := h.idle
  rw [hhs] at hidle
  obtain rfl := hidle _ List.mem_cons_self
  obtain ⟨conn,s,hrun,h0,⟨cl',hlen',hans⟩,hcalls⟩ :=
    Connection.disconnect_closings (c := c.conn) (s := sysPart w) ha
  rw [disconnectFrom,bind_ok ((disconnectClient_at hi).trans (bind_ok (sys_ok hrun)))]
  refine ⟨_,conn,_,bind_ok (runHandler_idle hhs),
    ⟨?_,fun x hx => hidle x (List.mem_cons_of_mem _ hx),?_,cl',rest,?_,hans⟩,h0,
    rfl,rfl,List.append_assoc _ _ _,?_,?_⟩
  · exact (List.drop_set_of_lt (Nat.lt_succ_self i)).trans htail
  · have hhandled := h.handled
    rw [hhs] at hhandled
    exact Nat.le_of_succ_le_succ hhandled
  · exact (Nat.le_of_succ_le_succ hlen).trans hlen'
  · rw [callbacks,observed_append,observed_sys fun _ => rfl]
    rfl
  · rw [observed_append,hcalls]
    exact (List.append_nil _).trans (observed_closes _ _ _)

theorem disconnectFrom_left {gs : List ClientInfo} {i : Nat} {w : World} (h : Leaving gs i w) :
    ∃ w', (disconnectFrom gs.length i).run w = (.ok (), w') ∧ Left gs i w w' := by
  induction gs generalizing i w with
  | nil =>
    refine ⟨w,rfl,rfl,?_,by simp,[],(List.append_nil _).symm,rfl,rfl⟩
    rw [h.drop]
    intro e he
    cases he
  | cons c gs ih =>
    obtain ⟨w1,conn,new,hrun,hnext,h0,hcs,hgroup,hlog,hcall,hclose⟩ := disconnectFrom_step h
    obtain ⟨w',hrun',hleft⟩ := ih hnext
    obtain ⟨new',hlog',hcall',hclose'⟩ := hleft.log
    have hlt : i < w.server.clients.length := by
      have hlength := congrArg List.length h.drop
      rw [List.length_drop,List.length_map,List.length_cons] at hlength
      omega
    have hentry : w'.server.clients.drop i =
        some { c with conn := conn }::w'.server.clients.drop (i+1) := by
      have hfront := congrArg (fun l => l[i]?) hleft.front
      simp only [List.getElem?_take_of_lt (Nat.lt_succ_self i),hcs,
        List.getElem?_set_self hlt] at hfront
      obtain ⟨hi',hget⟩ := List.getElem?_eq_some_iff.mp hfront
      rw [List.drop_eq_getElem_cons hi',hget]
    refine ⟨w',hrun.trans hrun',?_,?_,?_,new++new',?_,?_,?_⟩
    · have hfront := congrArg (List.take i) hleft.front
      rw [List.take_take,List.take_take,Nat.min_eq_left (Nat.le_succ i),hcs,
        List.take_set_of_le (Nat.le_refl i)] at hfront
      exact hfront
    · rw [hentry]
      exact List.forall_mem_cons.mpr ⟨⟨_,rfl,h0⟩,hleft.behind⟩
    · rw [hleft.polled,hgroup,removeSocket_fds,List.filter_filter]
      refine List.filter_congr ?_
      intro fd _
      rw [Bool.eq_iff_iff]
      simp only [Bool.and_eq_true,decide_eq_true_eq,List.forall_mem_cons]
      exact ⟨fun h => ⟨h.2.symm,h.1⟩,fun h => ⟨h.2,h.1.symm⟩⟩
    · rw [hlog',hlog,List.append_assoc]
    · exact (observed_append Event.calls new new').trans (congrArg₂ (·++·) hcall hcall')
    · rw [observed_append,hclose,hclose']
      by_cases hc : c.conn.isConnected = true
      · rw [if_pos hc,List.filter_cons_of_pos (p := fun c : ClientInfo => c.conn.isConnected) hc]
        rfl
      · rw [if_neg hc,List.filter_cons_of_neg (p := fun c : ClientInfo => c.conn.isConnected) hc]
        rfl

/-! Empty pointers. -/

/-- The loop returns only if there is no empty pointer among the entries it visits. -/
theorem disconnectFrom_noNull {n i : Nat} {w w' : World} (hidle : ∀ h ∈ w.handlers, h = [])
    (h : (disconnectFrom n i).run w = (.ok (), w')) :
    none ∉ (w.server.clients.drop i).take n := by
  induction n generalizing i w with
  | zero => simp
  | succ n ih =>
    obtain ⟨⟨⟩,w1,hone,hrest⟩ := of_bind_ok h
    obtain ⟨⟨⟩,w2,hhandler,hloop⟩ := of_bind_ok hrest
    cases hi : w.server.clients[i]? with
    | none =>
      have hnil : w.server.clients.drop i = [] :=
        List.drop_eq_nil_of_le (List.getElem?_eq_none_iff.mp hi)
      simp [hnil]
    | some e => cases e with
      | none =>
        have hcrash := disconnectClient_crash (i := i) (w := w) (by simp [hi])
        cases hcrash.symm.trans hone
      | some c =>
        obtain ⟨hlt,hget⟩ := List.getElem?_eq_some_iff.mp hi
        rw [disconnectClient_at hi] at hone
        obtain ⟨conn,u,hsys,hset⟩ := of_bind_ok hone
        obtain ⟨hhs,hcs⟩ : w1.handlers = w.handlers ∧
            w1.server.clients = w.server.clients.set i (some { c with conn := conn }) := by
          obtain rfl := congrArg Prod.snd hsys
          cases hset
          exact ⟨rfl,rfl⟩
        rw [← hhs] at hidle
        cases hh : w1.handlers with
        | nil =>
          have hcut : runHandler.run w1 = (.error .cut, w1) := bind_error (nextHandler_nil hh)
          cases hcut.symm.trans hhandler
        | cons h hs =>
          rw [hh] at hidle
          obtain rfl := hidle h List.mem_cons_self
          cases (runHandler_idle hh).symm.trans hhandler
          have htail := ih (fun x hx => hidle x (List.mem_cons_of_mem _ hx)) hloop
          have hdrop : w1.server.clients.drop (i+1) = w.server.clients.drop (i+1) := by
            rw [hcs]
            exact List.drop_set_of_lt (Nat.lt_succ_self i)
          intro hmem
          rw [List.drop_eq_getElem_cons hlt,hget,List.take_succ_cons] at hmem
          cases List.mem_cons.mp hmem with
          | inl heq => cases heq
          | inr hmem => exact htail (hdrop ▸ hmem)

theorem destroyClient_handlers (target : Option ClientInfo) (w : World) :
    ((destroyClient target).run w).2.handlers = w.handlers := by
  cases target with
  | none => rfl
  | some c => rfl

theorem removeIfLoop_handlers (kept gap rest : List (Option ClientInfo)) (w : World) :
    ((removeIfLoop kept gap rest).run w).2.handlers = w.handlers := by
  induction rest generalizing kept gap w with
  | nil => rfl
  | cons e rest ih =>
    cases e with
    | none => rfl
    | some c =>
      by_cases hc : c.isConnected = true
      · simp only [removeIfLoop,hc,Bool.not_true,Bool.false_eq_true,if_false]
        cases gap with
        | nil => exact ih _ _ w
        | cons target gap =>
          have hkeep := destroyClient_handlers target w
          dsimp only
          cases hr : (destroyClient target).run w with
          | mk r u =>
            rw [hr] at hkeep
            cases r with
            | ok _ =>
              rw [bind_ok hr]
              exact (ih _ _ u).trans hkeep
            | error e =>
              rw [bind_error hr]
              exact hkeep
      · simp only [removeIfLoop,hc,Bool.not_false,if_true]
        exact ih _ _ w

/-! The sweep. -/

/-- No pointer is empty, the flag is set if an entry is marked, the handlers do not call the
server, and the kernel answers every call. -/
structure Undisturbed (w : World) : Prop where
  noNull : none ∉ w.server.clients
  flagged : ∀ c ∈ entries w.server.clients, c.isConnected = false →
    w.server.hasDisconnectedClients = true
  idle : ∀ h ∈ w.handlers, h = []
  handled : (entries w.server.clients).length ≤ w.handlers.length
  answered : ∃ cl rest, (entries w.server.clients).length ≤ cl.length ∧
    w.answers = closings cl++rest

/-- From w to w' the marked entries, and only they, were disconnected, announced and removed. -/
structure Swept (w w' : World) : Prop where
  clients : w'.server.clients =
    ((entries w.server.clients).filter (·.isConnected)).map some
  announced : callbacks (w'.log.drop w.log.length) =
    (gone (entries w.server.clients)).map fun c => .disconnect c.id
  polled : w'.server.pollGroup.fds = w.server.pollGroup.fds.filter fun fd =>
    decide (∀ c ∈ gone (entries w.server.clients), c.fd ≠ fd)
  closed : observed Event.closes (w'.log.drop w.log.length) =
    ((gone (entries w.server.clients)).filter (·.conn.isConnected)).map (·.conn.socket)

/-- A sweep that returns has met the marked entries at the end. -/
theorem sweep_markedLast {w w' : World} (h : Undisturbed w)
    (hr : handleDisconnectedClients.run w = (.ok (), w')) :
    MarkedLast (entries w.server.clients) := by
  unfold handleDisconnectedClients at hr
  rw [bind_ok (run_emit _ w),run_server_bind] at hr
  by_cases hflag : w.server.hasDisconnectedClients = true
  · have hflag' : (w.note .sweep).server.hasDisconnectedClients = true := hflag
    rw [if_pos hflag'] at hr
    obtain ⟨first,u,hrem,hrest⟩ := of_bind_ok hr
    have hhs : u.handlers = w.handlers := by
      unfold removeDisconnected at hrem
      rw [run_server_bind] at hrem
      obtain ⟨⟨kept,gap⟩,v,hloop,hset⟩ := of_bind_ok hrem
      have hkeep := removeIfLoop_handlers [] [] (w.note .sweep).server.clients (w.note .sweep)
      rw [hloop] at hkeep
      cases hset
      exact hkeep
    have hparted := removeDisconnected_cases (w.note .sweep) h.noNull
    rw [hrem] at hparted
    cases hparted with
    | @clean kept marked hcs hkept hmarked =>
      have hcs' : w.server.clients = kept++marked := hcs
      rw [hcs',entries,List.reduceOption_append]
      exact .of_split (fun c hc => hkept c (List.reduceOption_mem_iff.mp hc))
        (fun c hc => hmarked c (List.reduceOption_mem_iff.mp hc))
    | @moved kept gap _ hnone _ _ hserver _ _ =>
      rw [run_server_bind] at hrest
      obtain ⟨⟨⟩,v,hloop,-⟩ := of_bind_ok hrest
      have hnull := disconnectFrom_noNull (by rw [hhs]; exact h.idle) hloop
      simp only [hserver] at hnull
      rw [List.drop_left,List.length_append,Nat.add_sub_cancel_left,List.take_length] at hnull
      exact absurd hnone hnull
  · have hall : ∀ c ∈ entries w.server.clients, c.isConnected = true := by
      intro c hc
      by_contra hconn
      exact hflag (h.flagged c hc (by simpa using hconn))
    rw [← List.append_nil (entries w.server.clients)]
    exact .of_split hall (by simp)

theorem sweep_swept {w : World} (h : Undisturbed w)
    (hlast : MarkedLast (entries w.server.clients)) :
    ∃ w', handleDisconnectedClients.run w = (.ok (), w') ∧ Swept w w' := by
  have hsplit := hlast.split
  have hcs : w.server.clients = ((entries w.server.clients).filter (·.isConnected)).map some++
      (gone (entries w.server.clients)).map some := by
    rw [← List.map_append,← hsplit,map_some_reduceOption h.noNull]
  generalize hks : (entries w.server.clients).filter (·.isConnected) = ks at hcs
  generalize hgs : gone (entries w.server.clients) = gs at hcs
  have hconn : ∀ c ∈ ks, c.isConnected = true := by
    intro c hc
    rw [← hks] at hc
    exact (List.mem_filter.mp hc).2
  have hmarked : ∀ c ∈ gs, c.isConnected = false := by
    intro c hc
    rw [← hgs] at hc
    have hc' := (List.mem_filter.mp hc).2
    simpa using hc'
  unfold handleDisconnectedClients
  rw [bind_ok (run_emit _ w),run_server_bind]
  by_cases hflag : w.server.hasDisconnectedClients = true
  · have hflag' : (w.note .sweep).server.hasDisconnectedClients = true := hflag
    have hrem := removeDisconnected_last (w := w.note .sweep) hcs hconn hmarked
    have hlen : gs.length ≤ (entries w.server.clients).length := by
      rw [← hgs]
      exact List.length_filter_le _ _
    obtain ⟨cl,rest,hcl,ha⟩ := h.answered
    have hleaving : Leaving gs ks.length (w.note .sweep) := by
      refine ⟨?_,h.idle,hlen.trans h.handled,cl,rest,hlen.trans hcl,ha⟩
      exact (congrArg (List.drop ks.length) hcs).trans (List.drop_left' (List.length_map some))
    obtain ⟨w',hloop,hleft⟩ := disconnectFrom_left hleaving
    have hcount : (w.note .sweep).server.clients.length-ks.length = gs.length := by
      have hlength := congrArg List.length hcs
      rw [List.length_append,List.length_map,List.length_map] at hlength
      exact Nat.sub_eq_of_eq_add' hlength
    obtain ⟨new,hlog,hcalls,hcloses⟩ := hleft.log
    have hnew : (w'.withServer fun s => { s with clients := s.clients.take ks.length }).log.drop
        w.log.length = ⟨.sweep,w.toProcess⟩::new := by
      rw [World.withServer_log,hlog,World.note_log,List.append_assoc,List.drop_left]
      rfl
    rw [if_pos hflag',bind_ok hrem,run_server_bind,hcount,bind_ok hloop,
      eraseFrom_closed _ _ hleft.behind]
    refine ⟨_,rfl,?_,?_,?_,?_⟩
    · rw [hks]
      refine hleft.front.trans ((congrArg (List.take ks.length) hcs).trans ?_)
      exact List.take_left' (List.length_map some)
    · rw [hnew,hgs,callbacks,observed_cons]
      exact hcalls
    · rw [hgs]
      exact hleft.polled
    · rw [hnew,hgs,observed_cons]
      exact hcloses
  · have hflag' : ¬(w.note .sweep).server.hasDisconnectedClients = true := hflag
    have hnil : gs = [] := by
      refine List.eq_nil_iff_forall_not_mem.mpr ?_
      intro c hc
      exact hflag (h.flagged c (List.mem_filter.mp (hgs ▸ hc)).1 (hmarked c hc))
    subst hnil
    have hnew : (w.note .sweep).log.drop w.log.length = [⟨.sweep,w.toProcess⟩] := by
      rw [World.note_log,List.drop_left]
    rw [if_neg hflag']
    refine ⟨_,rfl,?_,?_,?_,?_⟩
    · rw [hks]
      exact hcs.trans (List.append_nil _)
    · rw [hnew,hgs]
      rfl
    · rw [hgs]
      exact (List.filter_eq_self.mpr (by simp)).symm
    · rw [hnew,hgs]
      rfl

/-- The sweep removes the marked clients as intended exactly if they are the last ones. -/
theorem sweep_iff {w : World} (h : Undisturbed w) :
    (∃ w', handleDisconnectedClients.run w = (.ok (), w') ∧ Swept w w') ↔
      MarkedLast (entries w.server.clients) := by
  constructor
  · intro hsweep
    obtain ⟨w',hr,-⟩ := hsweep
    exact sweep_markedLast h hr
  · exact sweep_swept h

def twoClients (first second : Bool) : World :=
  { World.holding [⟨1,{ socket := 4 },4,first⟩,⟨2,{ socket := 5 },5,second⟩]
      (closings [(.ok (),.ok ()),(.ok (),.ok ())]) with handlers := [[],[]] }

theorem twoClients_undisturbed (first second : Bool) : Undisturbed (twoClients first second) := by
  refine ⟨by simp [twoClients,World.holding],?_,by simp [twoClients],Nat.le_refl 2,
    [(.ok (),.ok ()),(.ok (),.ok ())],[],Nat.le_refl 2,(List.append_nil _).symm⟩
  intro c hc hmarked
  have hmem : c ∈ [(⟨1,{ socket := 4 },4,first⟩ : ClientInfo),⟨2,{ socket := 5 },5,second⟩] := hc
  exact List.any_eq_true.mpr ⟨c,hmem,by simp [hmarked]⟩

/-- The second of two clients is marked. -/
theorem sweep_second : ∃ w', handleDisconnectedClients.run (twoClients true false) = (.ok (), w') ∧
    Swept (twoClients true false) w' :=
  (sweep_iff (twoClients_undisturbed true false)).mpr (by decide)

/-- The first of two clients is marked: the second takes its place and leaves an empty pointer
behind, which the loop dereferences. -/
theorem sweep_first_crashes : ¬∀ w : World, Undisturbed w →
    ∃ w', handleDisconnectedClients.run w = (.ok (), w') ∧ Swept w w' := by
  intro hall
  obtain ⟨w',hr,-⟩ := hall _ (twoClients_undisturbed false true)
  have hcrash : (handleDisconnectedClients.run (twoClients false true)).1 = .error .crash := rfl
  rw [hr] at hcrash
  cases hcrash

end Server
end Yonaa
