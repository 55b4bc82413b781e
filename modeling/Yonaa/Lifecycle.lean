import Yonaa.Machine
import Yonaa.Moves

/-! The two threads of a server: the user's calls of `run`, `stop` and `~server`, and the
network thread around its loop. Every read or write of `running_` is a step. -/
namespace Yonaa
open Machine

inductive User where
  | idle
  | spawning       -- in `run`, after it has read that `running_` is not set
  | joining        -- in `~server`, waiting in `join`
  | gone           -- after `~server`
deriving DecidableEq

inductive Network where
  | absent
  | spawned        -- before `running_ = true`
  | opening        -- before the acceptor is open
  | head           -- before `running_` is read by the network loop
  | body           -- in an iteration
  | closing        -- after the network loop
  | ended
deriving DecidableEq

inductive Fate where
  | alive
  | exited         -- by `std::exit`
  | terminated     -- by `std::terminate`
deriving DecidableEq

structure Lifecycle where
  running : Bool := false
  joinable : Bool := false       -- `network_thread_.joinable()`
  user : User := .idle
  network : Network := .absent
  fate : Fate := .alive
  stopped : Bool := false        -- history: a stop has completed since the last `run`
  iterations : Nat := 0          -- history: the iterations started
deriving DecidableEq

/-- Where a point of a run is in the life of the network thread. -/
def Point.network : Point → Network
  | .start => .spawned
  | .top => .head
  | .accepting | .events _ | .sweeping | .removing _ _ _ => .body
  | .left => .closing
  | .done | .dead => .ended

namespace Lifecycle

inductive Act where
  | run                          -- `run` reads `running_`
  | spawn                        -- the assignment to `network_thread_`
  | stop
  | destroy                      -- `~server` asks `joinable()`
  | joined
  | start                        -- `running_ = true` in the network thread
  | opened
  | openFailed
  | readRunning                  -- the condition of the network loop
  | handlerStop                  -- a handler calls `stop`
  | endIteration
  | close
deriving DecidableEq

def initial : Lifecycle := {}

/-- What an act does when its thread has come to it. -/
def effect (s : Lifecycle) : Act → Lifecycle
  | .run =>
    if s.running then { s with stopped := false }
    else { s with stopped := false, user := .spawning }
  | .spawn =>
    if s.joinable then { s with fate := .terminated }
    else { s with user := .idle, joinable := true, network := .spawned }
  | .stop => { s with running := false, stopped := true }
  | .destroy => { s with user := if s.joinable then .joining else .gone }
  | .joined => { s with user := .gone, joinable := false }
  | .start => { s with running := true, network := .opening }
  | .opened => { s with network := .head }
  | .openFailed => { s with fate := .exited }
  | .readRunning =>
    if s.running then { s with network := .body, iterations := s.iterations+1 }
    else { s with network := .closing }
  | .handlerStop => { s with running := false, stopped := true }
  | .endIteration => { s with network := .head }
  | .close => { s with network := .ended }

def enabled (s : Lifecycle) : Act → Bool
  | .run | .stop | .destroy => s.user = .idle
  | .spawn => s.user = .spawning
  | .joined => s.user = .joining && s.network = .ended
  | .start => s.network = .spawned
  | .opened | .openFailed => s.network = .opening
  | .readRunning => s.network = .head
  | .handlerStop | .endIteration => s.network = .body
  | .close => s.network = .closing

def step (s : Lifecycle) (a : Act) : Option Lifecycle :=
  if s.fate = .alive && s.enabled a then some (s.effect a) else none

theorem step_some {s t : Lifecycle} {a : Act} (h : step s a = some t) :
    s.fate = .alive ∧ s.enabled a = true ∧ s.effect a = t := by
  unfold step at h
  split at h
  next hs =>
    simp only [Bool.and_eq_true,decide_eq_true_eq] at hs
    exact ⟨hs.1,hs.2,by simpa using h⟩
  next => cases h

/-! A stop request is lost when the network thread has not yet set `running_`. -/

/-- The request is in force: `running_` is not set, and until `run` is called again no
iteration begins. -/
def Kept (s : Lifecycle) : Prop :=
  s.stopped = true ∨ s.user = .joining → s.running = false ∧
    ∀ acts t, Act.run ∉ acts → run step s acts = some t → t.iterations = s.iterations

/-- A stop comes after the thread has set `running_`, and the destructor of a server
that has a thread after a stop. -/
def Timely (s : Lifecycle) : Act → Prop
  | .stop => s.network ≠ .spawned
  | .destroy => s.joinable = true → s.running = false ∧ s.network ≠ .spawned
  | _ => True

instance (s : Lifecycle) (a : Act) : Decidable (Timely s a) :=
  match a with
  | .stop => inferInstanceAs (Decidable (s.network ≠ .spawned))
  | .destroy =>
    inferInstanceAs (Decidable (s.joinable = true → s.running = false ∧ s.network ≠ .spawned))
  | .run | .spawn | .joined | .start | .opened | .openFailed | .readRunning | .handlerStop
  | .endIteration | .close => isTrue trivial

/-- Nothing sets `running_` before the next call of `run`. -/
structure Settled (s : Lifecycle) : Prop where
  running : s.running = false
  network : s.network ≠ .spawned
  joinable : s.user = .spawning → s.joinable = true

theorem Settled.step {s t : Lifecycle} {a : Act} (hs : Settled s) (ha : a ≠ .run)
    (h : step s a = some t) : Settled t ∧ t.iterations = s.iterations := by
  obtain ⟨hrunning,hnetwork,hjoinable⟩ := hs
  obtain ⟨-,henabled,rfl⟩ := step_some h
  cases a with
  | run => exact absurd rfl ha
  | spawn =>
    have hj := hjoinable (by simpa [enabled] using henabled)
    exact ⟨⟨by simp [effect,hj,hrunning],by simp [effect,hj,hnetwork],by simp [effect,hj]⟩,
      by simp [effect,hj]⟩
  | start => exact absurd (by simpa [enabled] using henabled) hnetwork
  | destroy =>
    refine ⟨⟨hrunning,hnetwork,?_⟩,rfl⟩
    intro hu
    simp only [effect] at hu
    split at hu <;> cases hu
  | readRunning =>
    simp only [effect,hrunning,Bool.false_eq_true,if_false]
    exact ⟨⟨rfl,(fun hn => nomatch hn),hjoinable⟩,trivial⟩
  | stop => exact ⟨⟨rfl,hnetwork,hjoinable⟩,rfl⟩
  | handlerStop => exact ⟨⟨rfl,hnetwork,hjoinable⟩,rfl⟩
  | joined => exact ⟨⟨hrunning,hnetwork,(fun hu => nomatch hu)⟩,rfl⟩
  | openFailed => exact ⟨⟨hrunning,hnetwork,hjoinable⟩,rfl⟩
  | opened => exact ⟨⟨hrunning,(fun hn => nomatch hn),hjoinable⟩,rfl⟩
  | endIteration => exact ⟨⟨hrunning,(fun hn => nomatch hn),hjoinable⟩,rfl⟩
  | close => exact ⟨⟨hrunning,(fun hn => nomatch hn),hjoinable⟩,rfl⟩

theorem Settled.iterations {s t : Lifecycle} {acts : List Act} (hs : Settled s)
    (hrun : Act.run ∉ acts) (h : run Lifecycle.step s acts = some t) :
    t.iterations = s.iterations := by
  induction acts generalizing s with
  | nil =>
    cases h
    rfl
  | cons a acts ih =>
    obtain ⟨u,ha,hu⟩ := Option.bind_eq_some_iff.mp h
    obtain ⟨hsettled,heq⟩ := hs.step (fun he => hrun (by simp [he])) ha
    rw [← heq]
    exact ih hsettled (fun hmem => hrun (by simp [hmem])) hu

/-- The server has its one thread from the first `run` to the end of `~server`. -/
structure Threaded (s : Lifecycle) : Prop where
  absent : s.joinable = false → s.user ≠ .gone → s.network = .absent ∧ s.running = false
  joining : s.user = .joining → s.joinable = true

theorem Threaded.initial : Threaded initial := ⟨fun _ _ => ⟨rfl,rfl⟩,fun h => nomatch h⟩

theorem Threaded.step (s : Lifecycle) (a : Act) (t : Lifecycle) (hs : Threaded s)
    (h : step s a = some t) : Threaded t := by
  obtain ⟨habsent,hjoining⟩ := hs
  obtain ⟨-,henabled,rfl⟩ := step_some h
  cases a <;> grind -linarith [effect,enabled,Threaded]

/-- In runs of timely calls: once a stop is requested the server settles. -/
structure Obeyed (s : Lifecycle) : Prop extends Threaded s where
  running : s.stopped = true ∨ s.user = .joining → s.running = false ∧ s.network ≠ .spawned
  spawning : s.user = .spawning → s.joinable = false → s.stopped = false

theorem Obeyed.initial : Obeyed initial :=
  ⟨.initial,by simp [Lifecycle.initial],fun h => nomatch h⟩

theorem Obeyed.kept {s : Lifecycle} (hs : Obeyed s) : Kept s := by
  intro h
  obtain ⟨hrunning,hnetwork⟩ := hs.running h
  refine ⟨hrunning,fun acts t hrun ht => Settled.iterations ⟨hrunning,hnetwork,?_⟩ hrun ht⟩
  intro hu
  obtain h | h := h
  · cases hj : s.joinable with
    | true => rfl
    | false =>
      rw [hs.spawning hu hj] at h
      cases h
  · rw [hu] at h
    cases h

theorem Obeyed.step (s : Lifecycle) (a : Act) (t : Lifecycle) (hs : Obeyed s)
    (ho : Timely s a) (h : step s a = some t) : Obeyed t := by
  have ht := hs.toThreaded.step s a t h
  obtain ⟨⟨habsent,hjoining⟩,hrunning,hspawning⟩ := hs
  obtain ⟨-,henabled,rfl⟩ := step_some h
  refine ⟨ht,?_,?_⟩
  · cases a <;> grind -linarith [effect,enabled,Timely]
  · cases a <;> grind -linarith [effect,enabled]

theorem Kept.timely (s : Lifecycle) (a : Act) (t : Lifecycle) (h : step s a = some t)
    (hk : Kept t) : Timely s a := by
  obtain ⟨halive,henabled,rfl⟩ := step_some h
  -- A thread that has not begun starts its first iteration.
  have hbegin : ∀ u : Lifecycle, u.fate = .alive → u.network = .spawned →
      ∃ v, run step u [.start,.opened,.readRunning] = some v ∧
        v.iterations = u.iterations+1 := by
    intro u hf hn
    exact ⟨_,by simp [run,step,enabled,effect,hf,hn]; rfl,rfl⟩
  have hnone : Act.run ∉ [Act.start,Act.opened,Act.readRunning] := by decide
  cases a with
  | stop =>
    intro hn
    obtain ⟨-,hquiet⟩ := hk (Or.inl rfl)
    obtain ⟨v,hv,hiter⟩ := hbegin (s.effect .stop) halive hn
    have := hquiet _ v hnone hv
    omega
  | destroy =>
    intro hj
    have hu : (s.effect .destroy).user = .joining := by simp [effect,hj]
    obtain ⟨hrunning,hquiet⟩ := hk (Or.inr hu)
    refine ⟨hrunning,?_⟩
    intro hn
    obtain ⟨v,hv,hiter⟩ := hbegin (s.effect .destroy) halive hn
    have := hquiet _ v hnone hv
    omega
  | _ => trivial

/-- In a run every stop request stays in force exactly if every call was timely. -/
theorem stop_kept_iff {acts : List Act} {s : Lifecycle} (h : run step initial acts = some s) :
    Always step Kept initial acts ↔ Meets step Timely initial acts :=
  ⟨fun hk => hk.meets Kept.timely h,
    fun ht => ht.always Obeyed.step (fun _ => Obeyed.kept) .initial⟩

def orderlyStop : List Act :=
  [.run,.spawn,.start,.opened,.readRunning,.stop,.endIteration,.readRunning,.destroy,.close,
    .joined]

theorem stop_kept_orderly : Always step Kept initial orderlyStop := by
  have h : ∃ s, run step initial orderlyStop = some s := ⟨_,rfl⟩
  obtain ⟨s,hs⟩ := h
  exact (stop_kept_iff hs).mpr (by decide)

/-- A stop before the network thread has begun, and the destructor without a stop. -/
theorem stop_not_kept : ¬Always step Kept initial [.run,.spawn,.stop] ∧
    ¬Always step Kept initial [.run,.spawn,.start,.destroy] :=
  ⟨fun h => absurd (h.meets Kept.timely rfl) (by decide),
    fun h => absurd (h.meets Kept.timely rfl) (by decide)⟩

/-! A second call of `run` terminates the process unless the first one has taken effect. -/

inductive Response where
  | returns        -- at once
  | starts         -- a network thread
  | terminates
deriving DecidableEq

def response (s : Lifecycle) : Option Response := do
  let t ← step s .run
  if t.user = .spawning then
    let u ← step t .spawn
    return if u.fate = .terminated then .terminates else .starts
  else return .returns

/-- What it should come to: nothing on a server that was started and not stopped since. -/
def wanted (s : Lifecycle) : Response :=
  if s.joinable = true ∧ s.stopped = false then .returns else .starts

/-- Every call of `run` does what it should. -/
def Answered (s : Lifecycle) : Act → Prop
  | .run => response s = some (wanted s)
  | _ => True

/-- A call of `run` on a server that has a thread finds `running_` set and no stop. -/
def Restartable (s : Lifecycle) : Act → Prop
  | .run => s.joinable = true → s.running = true ∧ s.stopped = false
  | _ => True

instance (s : Lifecycle) (a : Act) : Decidable (Restartable s a) :=
  match a with
  | .run => inferInstanceAs (Decidable (s.joinable = true → s.running = true ∧ s.stopped = false))
  | .stop | .destroy | .spawn | .joined | .start | .opened | .openFailed | .readRunning
  | .handlerStop | .endIteration | .close => isTrue trivial

/-- What `run` comes to is decided by `running_` and by the thread there is. -/
theorem response_eq {s t : Lifecycle} (h : step s .run = some t) :
    response s = some (if s.running then .returns
      else if s.joinable then .terminates else .starts) := by
  obtain ⟨halive,-,rfl⟩ := step_some h
  unfold response
  rw [h]
  cases hr : s.running with
  | true =>
    have hu : s.user = .idle := by simpa [enabled] using (step_some h).2.1
    simp [effect,hr,hu]
  | false =>
    cases hj : s.joinable <;> simp [effect,step,enabled,hr,hj,halive]

theorem Threaded.answered_iff {s t : Lifecycle} (hs : Threaded s) (a : Act)
    (h : Lifecycle.step s a = some t) : Answered s a ↔ Restartable s a := by
  cases a with
  | run =>
    have hu : s.user = .idle := by simpa [enabled] using (step_some h).2.1
    have habsent := hs.absent
    simp only [Answered,Restartable,response_eq h,wanted]
    grind -linarith
  | _ => exact Iff.rfl

/-- In runs of such calls `run` is about to start a thread only when there is none. -/
structure Unterminated (s : Lifecycle) : Prop where
  fate : s.fate ≠ .terminated
  spawning : s.user = .spawning → s.joinable = false

theorem Unterminated.step (s : Lifecycle) (a : Act) (t : Lifecycle) (hs : Unterminated s)
    (ho : Restartable s a) (h : step s a = some t) : Unterminated t := by
  obtain ⟨hfate,hspawning⟩ := hs
  obtain ⟨-,henabled,rfl⟩ := step_some h
  constructor
  · cases a <;> grind -linarith [effect,enabled]
  · cases a <;> grind -linarith [effect,enabled,Restartable]

/-- Every call of `run` in a run does what it should, and none ends in `std::terminate`,
exactly if each found `running_` set and no stop whenever there was a thread. -/
theorem run_answered_iff {acts : List Act} {s : Lifecycle}
    (h : run step initial acts = some s) :
    Meets step Answered initial acts ∧ s.fate ≠ .terminated ↔
      Meets step Restartable initial acts := by
  have hiff := meets_congr (fun s a t hs ha _ => Threaded.step s a t hs ha)
    (fun s a t hs ha => hs.answered_iff a ha) .initial h
  rw [hiff]
  refine ⟨And.left,fun hr => ⟨hr,?_⟩⟩
  exact (hr.invariant Unterminated.step ⟨by decide,by decide⟩ h).fate

theorem run_answered_repeated : ∃ s, run step initial [.run,.spawn,.start,.run] = some s ∧
    Meets step Answered initial [.run,.spawn,.start,.run] ∧ s.fate ≠ .terminated := by
  have h : ∃ s, run step initial [.run,.spawn,.start,.run] = some s := ⟨_,rfl⟩
  obtain ⟨s,hs⟩ := h
  exact ⟨s,hs,(run_answered_iff hs).mpr (by decide)⟩

/-- Two calls before the network thread has begun, and a restart after a stop. -/
theorem run_terminates :
    (∃ s, run step initial [.run,.spawn,.run,.spawn] = some s ∧ s.fate = .terminated) ∧
    ∃ s, run step initial [.run,.spawn,.start,.opened,.readRunning,.stop,.endIteration,
      .readRunning,.close,.run,.spawn] = some s ∧ s.fate = .terminated :=
  ⟨⟨_,rfl,rfl⟩,_,rfl,rfl⟩

/-! The network thread of a run is the network thread of a server that was started once. -/

structure Mirrors (s : Lifecycle) (x : Point × World) : Prop where
  running : s.running = x.2.server.running
  network : s.network = x.1.network
  user : s.user = .idle
  fate : s.fate = .alive

section Mirrors
variable {s : Lifecycle} {x y : Point × World}

def Leads (s : Lifecycle) (y : Point × World) : Prop :=
  ∃ acts t, Act.run ∉ acts ∧ run step s acts = some t ∧ Mirrors t y

theorem Mirrors.stay (hs : Mirrors s x) (hr : y.2.server.running = x.2.server.running)
    (hn : y.1.network = x.1.network) : Leads s y :=
  ⟨[],s,List.not_mem_nil,rfl,hs.running.trans hr.symm,hs.network.trans hn.symm,hs.user,hs.fate⟩

theorem Mirrors.act (hs : Mirrors s x) {a : Act} (ha : a ≠ .run) (he : s.enabled a = true)
    (hy : Mirrors (s.effect a) y) : Leads s y := by
  refine ⟨[a],s.effect a,by simpa using ha.symm,run_single ?_,hy⟩
  simp [step,hs.fate,he]

theorem Mirrors.move (hs : Mirrors s x) (h : Move x y) (hy : y.1 ≠ .dead) : Leads s y := by
  obtain ⟨hrunning,hnetwork,huser,hfate⟩ := id hs
  cases h with
  | @opened w w' a hserver hnext hlog =>
    have hn : s.network = .spawned := hnetwork
    refine ⟨[.start,.opened],(s.effect .start).effect .opened,by decide,?_,?_,rfl,huser,hfate⟩
    · simp [run,step,enabled,effect,hn,hfate]
    · simp [effect,hserver]
  | api hp h =>
    cases h with
    | quiet h => exact hs.stay h.running rfl
    | marked h => exact hs.stay rfl rfl
    | stopped =>
      exact hs.act (a := .stop) (by decide) (by simp [enabled,huser])
        ⟨rfl,hnetwork,huser,hfate⟩
  | enter h =>
    have hr : s.running = true := hrunning.trans h
    refine hs.act (a := .readRunning) (by decide) (by simp [enabled,hnetwork,Point.network]) ?_
    refine ⟨?_,?_,?_,?_⟩ <;> simp [effect,hr,Point.network,huser,hfate,h]
  | leave h =>
    have hr : s.running = false := hrunning.trans h
    refine hs.act (a := .readRunning) (by decide) (by simp [enabled,hnetwork,Point.network]) ?_
    refine ⟨?_,?_,?_,?_⟩ <;> simp [effect,hr,Point.network,huser,hfate,h]
  | refused hrun h => exact hs.stay h.running rfl
  | registered hrun hnew hconn hp hfds hserver hnext hlog =>
    exact hs.stay (by simp [hserver]) rfl
  | polled h =>
    obtain ⟨g,-,hserver⟩ := h.server
    exact hs.stay (by simp [hserver]) rfl
  | ignored => exact hs.stay rfl rfl
  | rejected hrun hf hfds hcalls hd => exact hs.stay rfl rfl
  | closed hrun hf hopen hfds hcalls hd => exact hs.stay rfl rfl
  | delivered hrun hf hopen hne hsize hec hfds hcalls => exact hs.stay rfl rfl
  | sweep => exact hs.stay rfl rfl
  | skip h =>
    exact hs.act (a := .endIteration) (by decide) (by simp [enabled,hnetwork,Point.network])
      ⟨hrunning,rfl,huser,hfate⟩
  | parted h hkept hgone => exact hs.stay rfl rfl
  | moved hflag hnone hsub hgap hserver hnext hlog => exact hs.stay (by simp [hserver]) rfl
  | disconnected h hconn hserver hnext hfds hlog => exact hs.stay (by simp [hserver]) rfl
  | erased =>
    exact hs.act (a := .endIteration) (by decide) (by simp [enabled,hnetwork,Point.network])
      ⟨hrunning,rfl,huser,hfate⟩
  | shut ha hserver hnext hlog hnew hfds =>
    refine hs.act (a := .close) (by decide) (by simp [enabled,hnetwork,Point.network]) ?_
    exact ⟨by simp [effect,hserver,hrunning],rfl,huser,hfate⟩
  | die hp hlog hnew => exact absurd rfl hy

/-- Every point of a run is where the network thread is after one `run`, some stops and
steps of its own. -/
theorem passed_mirrors (hx : Passed x) (ha : x.1 ≠ .dead) :
    ∃ s, run step initial [.run,.spawn] = some s ∧ Leads s x := by
  refine Passed.induct (I := fun x => x.1 ≠ .dead → ∃ s,
    run step initial [.run,.spawn] = some s ∧ Leads s x) ?_ ?_ hx ha
  · intro env _
    exact ⟨_,rfl,[],_,List.not_mem_nil,rfl,rfl,rfl,rfl,rfl⟩
  · intro x y hx hm ih hy
    obtain ⟨s,hs,acts,t,hacts,hrun,ht⟩ := ih hm.alive
    obtain ⟨acts',u,hacts',hrun',hu⟩ := ht.move hm hy
    refine ⟨s,hs,acts++acts',u,?_,run_trans hrun hrun',hu⟩
    simp [hacts,hacts']

end Mirrors
end Lifecycle
end Yonaa
