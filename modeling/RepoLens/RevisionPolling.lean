import Mathlib

/-!
`web/src/revisionPolling.ts`: the poller of the repositories page. Its variables are shared by an
asynchronous function and three entry points.
-/

namespace RepoLens

namespace RevisionPolling

structure RevisionPollResult (T : Type) where
  value : T
  error : Option String

/-- The options. `isHidden` answers by the number of callbacks before it, so the page may be hidden
or shown between any two of its calls. -/
structure RevisionPollingOptions (T : Type) where
  hasPreparing : T → Bool
  hasOnPollStart : Bool
  hasOnPollEnd : Bool
  isHidden : Nat → Bool
  baseDelayMs : Option Int
  maxDelayMs : Option Int
  hiddenDelayMs : Option Int

inductive Callback (T : Type) where
  | poll
  | hasPreparing (value : T)
  | onValue (value : T)
  | onError (error : Option String)
  | onPollStart
  | onPollEnd
  | isHidden

structure Timer where
  id : Nat
  delay : Int

/-- The variables of the poller, and behind them what the page keeps. -/
structure State (T : Type) where
  stopped : Bool
  inFlight : Bool
  timer : Option Nat
  delayMs : Int
  hasPreparing : Bool
  hasSuccessfulPoll : Bool
  terminal : Bool
  refreshPending : Bool
  visibilityRefreshPending : Bool
  polls : Nat
  mostPolls : Nat
  timers : List Timer
  mostTimers : Nat
  created : Nat
  calls : List (Callback T)

variable {T : Type} (options : RevisionPollingOptions T)

def baseDelayMs : Int := options.baseDelayMs.getD 1000

def maxDelayMs : Int := options.maxDelayMs.getD 5000

def hiddenDelayMs : Int := options.hiddenDelayMs.getD 5000

def startRevisionPolling : State T where
  stopped := false
  inFlight := false
  timer := none
  delayMs := baseDelayMs options
  hasPreparing := false
  hasSuccessfulPoll := false
  terminal := false
  refreshPending := false
  visibilityRefreshPending := false
  polls := 0
  mostPolls := 0
  timers := []
  mostTimers := 0
  created := 0
  calls := []

def call (callback : Callback T) (s : State T) : State T :=
  { s with calls := s.calls ++ [callback] }

def setTimeout (delay : Int) (s : State T) : State T :=
  { s with
    timer := some s.created
    timers := s.timers ++ [⟨s.created, delay⟩]
    mostTimers := max s.mostTimers (s.timers.length + 1)
    created := s.created + 1 }

def awaitPoll (s : State T) : State T :=
  { call .poll s with polls := s.polls + 1, mostPolls := max s.mostPolls (s.polls + 1) }

def clearTimer (s : State T) : State T :=
  match s.timer with
  | none => s
  | some id => { s with timers := s.timers.filter (·.id != id), timer := none }

def schedule (delay : Int) (s : State T) : State T :=
  if s.stopped || s.terminal || s.timer.isSome then s else setTimeout delay s

def scheduleNext (s : State T) : State T :=
  let nextDelay := s.delayMs
  let hidden := options.isHidden s.calls.length
  let s := call .isHidden { s with delayMs := min (maxDelayMs options) (s.delayMs * 2) }
  schedule (if hidden then hiddenDelayMs options else nextDelay) s

def poll (force : Bool) (s : State T) : State T :=
  if s.stopped || s.inFlight || (s.terminal && !force) then s
  else
    let hidden := options.isHidden s.calls.length
    let s := call .isHidden s
    if hidden then schedule (hiddenDelayMs options) s
    else
      let s := { s with inFlight := true }
      awaitPoll (if options.hasOnPollStart then call .onPollStart s else s)

inductive Outcome (T : Type) where
  | resolved (result : RevisionPollResult T)
  | rejected (message : Option String)

def errorText (message : Option String) : String :=
  match message with
  | some text => if text != "" then text else "刷新分析版本失败，请检查网络后重新加载。"
  | none => "刷新分析版本失败，请检查网络后重新加载。"

def Outcome.value? : Outcome T → Option T
  | .resolved result => some result.value
  | .rejected _ => none

def receive (outcome : Outcome T) (s : State T) : State T :=
  match outcome with
  | .resolved result =>
    let s := call (.onError result.error) (call (.onValue result.value) s)
    let preparing := options.hasPreparing result.value
    { call (.hasPreparing result.value) { s with hasSuccessfulPoll := true } with
      hasPreparing := preparing
      terminal := !preparing }
  | .rejected message => call (.onError (some (errorText message))) s

/-- The rest of the `try` block, or the `catch` block. -/
def settle (outcome : Outcome T) (s : State T) : State T :=
  if s.stopped then s
  else
    let s := receive options outcome s
    if s.hasPreparing then scheduleNext options s else s

def resume (s : State T) : State T :=
  if s.refreshPending then
    poll options true (clearTimer { s with refreshPending := false, terminal := false })
  else if s.visibilityRefreshPending then
    let s := { s with visibilityRefreshPending := false }
    if !s.terminal && (s.hasPreparing || !s.hasSuccessfulPoll) then
      poll options false (clearTimer s) else s
  else s

/-- The `finally` block. -/
def finish (s : State T) : State T :=
  let s := { s with inFlight := false }
  if s.stopped then s else resume options (if options.hasOnPollEnd then call .onPollEnd s else s)

def refresh (s : State T) : State T :=
  if s.stopped then s
  else
    let s := { s with terminal := false }
    if s.inFlight then { s with refreshPending := true } else poll options true (clearTimer s)

def visibilityChanged (s : State T) : State T :=
  if s.stopped || s.terminal then s
  else if s.inFlight then { s with visibilityRefreshPending := true }
  else poll options false (clearTimer s)

def stop (s : State T) : State T := clearTimer { s with stopped := true }

inductive Event (T : Type) where
  | refresh
  | visibilityChanged
  | stop
  | fires (id : Nat)
  | settles (outcome : Outcome T)

def step (s : State T) : Event T → Option (State T)
  | .refresh => some (refresh options s)
  | .visibilityChanged => some (visibilityChanged options s)
  | .stop => some (stop s)
  | .fires id =>
    if s.timers.any (·.id == id) then
      some (poll options false { s with timers := s.timers.filter (·.id != id), timer := none })
    else none
  | .settles outcome =>
    if 0 < s.polls then
      some (finish options (settle options outcome { s with polls := s.polls - 1 })) else none

def run (s : State T) (events : List (Event T)) : Option (State T) := events.foldlM (step options) s

structure Agrees (s : State T) : Prop where
  polls : s.polls = if s.inFlight then 1 else 0
  mostPolls : s.mostPolls ≤ 1
  timers : s.timers.map (·.id) = s.timer.toList
  mostTimers : s.mostTimers ≤ 1

/-- The poller between events. -/
structure Steady (s : State T) : Prop extends Agrees s where
  busy : s.inFlight = true → s.timer = none
  stopped : s.stopped = true → s.timer = none
  terminal : s.terminal = true → s.timer = none
  finished : s.terminal = true → s.hasPreparing = false
  alive : s.stopped = false → s.terminal = false → s.hasPreparing = true → s.inFlight = true ∨
    s.timer.isSome

/-- The poller when it polls. -/
structure Ready (s : State T) : Prop extends Agrees s where
  running : s.stopped = false
  idle : s.inFlight = false
  open_ : s.terminal = false
  unset : s.timer = none

structure GoesOn (preparing : Bool) (s : State T) : Prop where
  steady : Steady s
  going : s.inFlight = true ∨ s.timer.isSome
  running : s.stopped = false
  hasPreparing : s.hasPreparing = preparing

section Operations

variable {options} {s : State T}

theorem startRevisionPolling_steady : Steady (startRevisionPolling options) := by
  constructor
  · constructor <;> simp [startRevisionPolling]
  all_goals simp [startRevisionPolling]

theorem clearTimer_eq (agrees : Agrees s) :
    clearTimer s = { s with timer := none, timers := [] } := by
  have timers := agrees.timers
  unfold clearTimer
  cases set : s.timer with
  | none =>
    rw [set] at timers
    have empty : s.timers = [] := List.map_eq_nil_iff.mp timers
    simp only [← set, ← empty]
  | some id =>
    rw [set] at timers
    have mine : s.timers.filter (·.id != id) = [] := by
      rw [List.filter_eq_nil_iff]
      intro timer member
      have listed := List.mem_map_of_mem (f := (·.id)) member
      rw [timers] at listed
      simpa using listed
    simp only [mine]

theorem Agrees.cleared (agrees : Agrees s) : Agrees { s with timer := none, timers := [] } :=
  ⟨agrees.polls, agrees.mostPolls, rfl, agrees.mostTimers⟩

theorem Agrees.setTimeout (agrees : Agrees s) (unset : s.timer = none) (delay : Int) :
    Agrees (setTimeout delay s) := by
  have empty : s.timers = [] := by
    apply List.map_eq_nil_iff.mp
    rw [agrees.timers, unset]
    rfl
  constructor
  · exact agrees.polls
  · exact agrees.mostPolls
  · simp [RevisionPolling.setTimeout, empty]
  · simpa [RevisionPolling.setTimeout, empty] using agrees.mostTimers

theorem Agrees.awaitPoll (agrees : Agrees s) (idle : s.inFlight = false) :
    Agrees (awaitPoll { s with inFlight := true }) := by
  have none_yet : s.polls = 0 := by simpa [idle] using agrees.polls
  constructor
  · simp [RevisionPolling.awaitPoll, call, none_yet]
  · simpa [RevisionPolling.awaitPoll, none_yet] using agrees.mostPolls
  · exact agrees.timers
  · exact agrees.mostTimers

theorem Agrees.call (agrees : Agrees s) (callback : Callback T) : Agrees (call callback s) :=
  ⟨agrees.polls, agrees.mostPolls, agrees.timers, agrees.mostTimers⟩

theorem Ready.of_clearTimer (agrees : Agrees s) (running : s.stopped = false)
    (idle : s.inFlight = false)
    (unfinished : s.terminal = false) : Ready (clearTimer s) := by
  rw [clearTimer_eq agrees]
  exact ⟨agrees.cleared, running, idle, unfinished, rfl⟩

theorem schedule_eq {delay : Int} (running : s.stopped = false) (unfinished : s.terminal = false)
    (unset : s.timer = none) : schedule delay s = setTimeout delay s := by
  simp [schedule, running, unfinished, unset]

theorem Ready.call (ready : Ready s) (callback : Callback T) : Ready (call callback s) :=
  ⟨ready.toAgrees.call callback, ready.running, ready.idle, ready.open_, ready.unset⟩

theorem Ready.setTimeout (ready : Ready s) (delay : Int) :
    GoesOn s.hasPreparing (setTimeout delay s) where
  steady := by
    refine ⟨ready.toAgrees.setTimeout ready.unset delay, ?_, ?_, ?_, ?_, ?_⟩
    all_goals simp [RevisionPolling.setTimeout, ready.running, ready.idle, ready.open_]
  going := .inr rfl
  running := ready.running
  hasPreparing := rfl

theorem Ready.awaitPoll (ready : Ready s) :
    GoesOn s.hasPreparing (awaitPoll { s with inFlight := true }) where
  steady := by
    refine ⟨ready.toAgrees.awaitPoll ready.idle, ?_, ?_, ?_, ?_, ?_⟩
    all_goals simp [RevisionPolling.awaitPoll, RevisionPolling.call, ready.unset, ready.open_]
  going := .inl rfl
  running := ready.running
  hasPreparing := rfl

theorem poll_goesOn (force : Bool) (ready : Ready s) :
    GoesOn s.hasPreparing (poll options force s) := by
  have asked := ready.call .isHidden
  unfold poll
  simp only [ready.running, ready.idle, ready.open_, Bool.false_and, Bool.or_self,
    Bool.false_eq_true, if_false]
  split
  · -- a hidden page is polled later
    rw [schedule_eq asked.running asked.open_ asked.unset]
    exact asked.setTimeout _
  · split
    · exact (asked.call .onPollStart).awaitPoll
    · exact asked.awaitPoll

/-- The poller after the `try` or `catch` block, unless it is stopped. -/
structure Settled (s : State T) : Prop where
  agrees : Agrees { s with inFlight := false }
  terminal : s.terminal = true → s.timer = none
  finished : s.terminal = true → s.hasPreparing = false
  alive : s.terminal = false → s.hasPreparing = true → s.timer.isSome

theorem scheduleNext_settled (agrees : Agrees { s with inFlight := false })
    (running : s.stopped = false)
    (unfinished : s.terminal = false)
    (unset : s.timer = none) : Settled (scheduleNext options s) := by
  unfold scheduleNext
  rw [schedule_eq (by exact running) (by exact unfinished) (by exact unset)]
  generalize (if options.isHidden s.calls.length = true then _ else _) = delay
  have asked : Agrees (call .isHidden { s with
      delayMs := min (maxDelayMs options) (s.delayMs * 2), inFlight := false }) :=
    ⟨agrees.polls, agrees.mostPolls, agrees.timers, agrees.mostTimers⟩
  constructor
  · exact asked.setTimeout unset delay
  · intro finished
    exact absurd (unfinished.symm.trans finished) Bool.false_ne_true
  · intro finished
    exact absurd (unfinished.symm.trans finished) Bool.false_ne_true
  · intro _ _
    rfl

theorem receive_frame (outcome : Outcome T) : (receive options outcome s).stopped = s.stopped ∧
    (receive options outcome s).timer = s.timer ∧
      (receive options outcome s).refreshPending = s.refreshPending ∧
      (receive options outcome s).hasPreparing =
        (outcome.value?.map options.hasPreparing).getD s.hasPreparing := by
  cases outcome <;> exact ⟨rfl, rfl, rfl, rfl⟩

theorem receive_agrees (outcome : Outcome T) (agrees : Agrees { s with inFlight := false }) :
    Agrees { receive options outcome s with inFlight := false } := by
  cases outcome <;> exact ⟨agrees.polls, agrees.mostPolls, agrees.timers, agrees.mostTimers⟩

theorem receive_finished (outcome : Outcome T)
    (finished : s.terminal = true → s.hasPreparing = false) :
    (receive options outcome s).terminal = true →
      (receive options outcome s).hasPreparing = false := by
  cases outcome with
  | resolved result => simp [receive]
  | rejected message => exact finished

theorem scheduleNext_frame : (scheduleNext options s).stopped = s.stopped ∧
    (scheduleNext options s).refreshPending = s.refreshPending ∧
      (scheduleNext options s).hasPreparing = s.hasPreparing := by
  unfold scheduleNext schedule
  dsimp only
  split <;> exact ⟨rfl, rfl, rfl⟩

theorem settle_frame (outcome : Outcome T) (running : s.stopped = false) :
    (settle options outcome s).stopped = false ∧
      (settle options outcome s).refreshPending = s.refreshPending ∧
      (settle options outcome s).hasPreparing =
        (outcome.value?.map options.hasPreparing).getD s.hasPreparing := by
  obtain ⟨stopped, -, pending, preparing⟩ := @receive_frame _ options s outcome
  unfold settle
  rw [if_neg (by simp [running])]
  dsimp only
  split
  · obtain ⟨stopped', pending', preparing'⟩ :=
      @scheduleNext_frame _ options (receive options outcome s)
    exact ⟨stopped'.trans (stopped.trans running), pending'.trans pending,
      preparing'.trans preparing⟩
  · exact ⟨stopped.trans running, pending, preparing⟩

theorem settle_settled (outcome : Outcome T) (agrees : Agrees { s with inFlight := false })
    (running : s.stopped = false) (unset : s.timer = none)
    (finished : s.terminal = true →
      s.hasPreparing = false) : Settled (settle options outcome s) := by
  obtain ⟨stopped, timer, -, -⟩ := @receive_frame _ options s outcome
  have agrees' := @receive_agrees _ options _ outcome agrees
  have finished' := @receive_finished _ options _ outcome finished
  unfold settle
  rw [if_neg (by simp [running])]
  dsimp only
  split
  · rename_i preparing
    apply scheduleNext_settled agrees' (stopped.trans running) _ (timer.trans unset)
    by_contra terminal
    rw [finished' (by simpa using terminal)] at preparing
    exact Bool.false_ne_true preparing
  · rename_i ready
    refine ⟨agrees', fun _ => timer.trans unset, finished', ?_⟩
    intro _ preparing
    exact absurd preparing ready

theorem clearTimer_hasPreparing : (clearTimer s).hasPreparing = s.hasPreparing := by
  unfold clearTimer
  split <;> rfl

theorem Settled.steady (settled : Settled s) (running : s.stopped = false)
    (idle : s.inFlight = false) :
    Steady s := by
  have agrees : Agrees s := by
    have ended := settled.agrees
    rwa [← idle] at ended
  refine ⟨agrees, ?_, ?_, settled.terminal, settled.finished, ?_⟩
  · simp [idle]
  · simp [running]
  · intro _ unfinished preparing
    exact .inr (settled.alive unfinished preparing)

theorem resume_steady (settled : Settled s) (running : s.stopped = false)
    (idle : s.inFlight = false) :
    Steady (resume options s) ∧ (resume options s).stopped = false ∧
      (resume options s).hasPreparing = s.hasPreparing ∧
        (s.refreshPending = true → (resume options s).inFlight = true ∨
          (resume options s).timer.isSome) := by
  have steady := settled.steady running idle
  obtain ⟨polls, mostPolls, timers, mostTimers⟩ := steady.toAgrees
  unfold resume
  split
  · have ready := @Ready.of_clearTimer _ { s with refreshPending := false, terminal := false }
      ⟨polls, mostPolls, timers, mostTimers⟩ running idle rfl
    have goes := @poll_goesOn _ options _ true ready
    exact ⟨goes.steady, goes.running, goes.hasPreparing.trans clearTimer_hasPreparing,
      fun _ => goes.going⟩
  · rename_i notPending
    split
    · dsimp only
      split
      · rename_i wanted
        have ready := @Ready.of_clearTimer _ { s with visibilityRefreshPending := false }
          ⟨polls, mostPolls, timers, mostTimers⟩ running idle (by simp at wanted; exact wanted.1)
        have goes := @poll_goesOn _ options _ false ready
        exact ⟨goes.steady, goes.running, goes.hasPreparing.trans clearTimer_hasPreparing,
          fun _ => goes.going⟩
      · refine ⟨⟨⟨polls, mostPolls, timers, mostTimers⟩, steady.busy, steady.stopped,
          steady.terminal,
          steady.finished, steady.alive⟩, running, rfl, fun pending => absurd pending notPending⟩
    · exact ⟨steady, running, rfl, fun pending => absurd pending notPending⟩

theorem finish_steady (settled : Settled s) (running : s.stopped = false) :
    Steady (finish options s) ∧ (finish options s).stopped = false ∧
      (finish options s).hasPreparing = s.hasPreparing ∧
        (s.refreshPending = true → (finish options s).inFlight = true ∨
          (finish options s).timer.isSome) := by
  obtain ⟨agrees, terminal, finished, alive⟩ := settled
  unfold finish
  dsimp only
  rw [if_neg (by simp [running])]
  split
  · exact resume_steady ⟨agrees.call .onPollEnd, terminal, finished, alive⟩ running rfl
  · exact resume_steady ⟨agrees, terminal, finished, alive⟩ running rfl

end Operations

def Event.value? : Event T → Option T
  | .settles outcome => outcome.value?
  | _ => none

def Event.isSettles : Event T → Bool
  | .settles _ => true
  | _ => false

structure Step (s s' : State T) (event : Event T) : Prop where
  steady : Steady s'
  stopped : s'.stopped = true ↔ s.stopped = true ∨ event = .stop
  hasPreparing : s.stopped = false →
    s'.hasPreparing = (event.value?.map options.hasPreparing).getD s.hasPreparing

section Steps

variable {options} {s s' : State T} {event : Event T}

theorem Steady.timers_eq_nil (steady : Steady s) (unset : s.timer = none) : s.timers = [] := by
  apply List.map_eq_nil_iff.mp
  rw [steady.timers, unset]
  rfl

theorem GoesOn.step (goes : GoesOn s.hasPreparing s') (running : s.stopped = false)
    (other : event ≠ .stop)
    (silent : event.value? = none) : Step options s s' event where
  steady := goes.steady
  stopped := by simp [goes.running, running, other]
  hasPreparing := by
    intro _
    rw [silent]
    exact goes.hasPreparing

theorem refresh_step (steady : Steady s) : Step options s (refresh options s) .refresh := by
  obtain ⟨polls, mostPolls, timers, mostTimers⟩ := steady.toAgrees
  unfold refresh
  split
  · exact ⟨steady, by simp, fun _ => rfl⟩
  · rename_i notStopped
    have running : s.stopped = false := by simpa using notStopped
    dsimp only
    split
    · rename_i inFlight
      refine ⟨⟨⟨polls, mostPolls, timers, mostTimers⟩, steady.busy, steady.stopped, ?_, ?_,
        fun _ _ _ => .inl inFlight⟩, ?_, fun _ => rfl⟩
      all_goals simp
    · rename_i idle
      have ready := @Ready.of_clearTimer _ { s with terminal := false } ⟨polls, mostPolls, timers,
        mostTimers⟩ running
        (by simpa using idle) rfl
      have goes := @poll_goesOn _ options _ true ready
      rw [clearTimer_hasPreparing] at goes
      exact @GoesOn.step _ options s _ .refresh goes running (by simp) rfl

theorem visibilityChanged_step (steady : Steady s) :
    Step options s (visibilityChanged options s) .visibilityChanged := by
  obtain ⟨polls, mostPolls, timers, mostTimers⟩ := steady.toAgrees
  unfold visibilityChanged
  split
  · exact ⟨steady, by simp, fun _ => rfl⟩
  · rename_i live
    simp only [Bool.or_eq_true, not_or, Bool.not_eq_true] at live
    split
    · exact ⟨⟨⟨polls, mostPolls, timers, mostTimers⟩, steady.busy, steady.stopped, steady.terminal,
        steady.finished,
        steady.alive⟩, by simp, fun _ => rfl⟩
    · rename_i idle
      have ready := Ready.of_clearTimer steady.toAgrees live.1 (by simpa using idle) live.2
      have goes := @poll_goesOn _ options _ false ready
      rw [clearTimer_hasPreparing] at goes
      exact goes.step live.1 (by simp) rfl

theorem stop_step (steady : Steady s) : Step options s (stop s) .stop := by
  obtain ⟨polls, mostPolls, timers, mostTimers⟩ := steady.toAgrees
  unfold stop
  rw [@clearTimer_eq _ { s with stopped := true } ⟨polls, mostPolls, timers, mostTimers⟩]
  constructor
  · refine ⟨⟨polls, mostPolls, rfl, mostTimers⟩, fun _ => rfl, fun _ => rfl, fun _ => rfl,
      steady.finished, ?_⟩
    simp
  · simp
  · exact fun _ => rfl

theorem fires_step (steady : Steady s) {id : Nat} (pending : s.timers.any (·.id == id)) :
    Step options s (poll options false
      { s with timers := s.timers.filter (·.id != id), timer := none })
      (.fires id) := by
  obtain ⟨polls, mostPolls, timers, mostTimers⟩ := steady.toAgrees
  have listed : id ∈ s.timer.toList := by
    rw [← timers]
    simpa using pending
  have set : s.timer = some id := by simpa using listed
  have cleared : { s with timers := s.timers.filter (·.id != id), timer := none } =
      clearTimer s := by
    simp [clearTimer, set]
  have isSet : ∀ {flag : Bool}, (flag = true → s.timer = none) → flag = false := by
    intro flag unset
    cases flag with
    | false => rfl
    | true => simp [set] at unset
  rw [cleared]
  have running := isSet steady.stopped
  have ready :=
    Ready.of_clearTimer steady.toAgrees running (isSet steady.busy) (isSet steady.terminal)
  have goes := @poll_goesOn _ options _ false ready
  rw [clearTimer_hasPreparing] at goes
  exact goes.step running (by simp) rfl

theorem Steady.inFlight_of_awaited (steady : Steady s) (awaited : 0 < s.polls) :
    s.inFlight = true := by
  by_contra idle
  have polls := steady.polls
  rw [if_neg idle] at polls
  omega

theorem Steady.settle (steady : Steady s) (awaited : 0 < s.polls) (running : s.stopped = false)
    (outcome : Outcome T) : Settled (settle options outcome { s with polls := s.polls - 1 }) := by
  obtain ⟨polls, mostPolls, timers, mostTimers⟩ := steady.toAgrees
  have inFlight := steady.inFlight_of_awaited awaited
  have none_left : s.polls - 1 = 0 := by rw [polls, if_pos inFlight]
  exact settle_settled outcome ⟨none_left, mostPolls, timers,
    mostTimers⟩ running (steady.busy inFlight) steady.finished

theorem settles_stopped (outcome : Outcome T) (stopped : s.stopped = true) :
    finish options (settle options outcome { s with polls := s.polls - 1 }) =
      { s with polls := s.polls - 1, inFlight := false } := by
  simp [finish, settle, stopped]

theorem settles_step (steady : Steady s) (outcome : Outcome T) (awaited : 0 < s.polls) :
    Step options s (finish options (settle options outcome { s with polls := s.polls - 1 }))
      (.settles outcome) := by
  by_cases stopped : s.stopped = true
  · obtain ⟨polls, mostPolls, timers, mostTimers⟩ := steady.toAgrees
    have inFlight := steady.inFlight_of_awaited awaited
    have none_left : s.polls - 1 = 0 := by rw [polls, if_pos inFlight]
    rw [settles_stopped outcome stopped]
    refine ⟨⟨⟨none_left, mostPolls, timers, mostTimers⟩, fun _ => steady.busy inFlight,
      steady.stopped,
      steady.terminal, steady.finished, ?_⟩, by simp, ?_⟩
    all_goals simp [stopped]
  · have running : s.stopped = false := by simpa using stopped
    have frame := @settle_frame _ options { s with polls := s.polls - 1 } outcome running
    obtain ⟨steady', running', preparing, -⟩ :=
      @finish_steady _ options _ (steady.settle awaited running outcome) frame.1
    constructor
    · exact steady'
    · rw [running']
      simp [running]
    · intro _
      exact preparing.trans frame.2.2

theorem step_sound (steady : Steady s) (stepped : step options s event = some s') :
    Step options s s' event := by
  cases event with
  | refresh => exact Option.some.inj stepped ▸ refresh_step steady
  | visibilityChanged => exact Option.some.inj stepped ▸ visibilityChanged_step steady
  | stop => exact Option.some.inj stepped ▸ stop_step steady
  | fires id =>
    obtain ⟨pending, same⟩ := Option.ite_none_right_eq_some.mp stepped
    exact Option.some.inj same ▸ fires_step steady pending
  | settles outcome =>
    obtain ⟨awaited, same⟩ := Option.ite_none_right_eq_some.mp stepped
    exact Option.some.inj same ▸ settles_step steady outcome awaited

theorem refresh_waits (running : s.stopped = false) (inFlight : s.inFlight = true) :
    refresh options s = { s with terminal := false, refreshPending := true } := by
  simp [refresh, running, inFlight]

theorem step_waits (steady : Steady s) (stepped : step options s event = some s')
    (other : event.isSettles = false)
    (inFlight : s.inFlight = true) (waits : s.refreshPending = true) :
    s'.inFlight = true ∧ s'.refreshPending = true := by
  cases event with
  | refresh =>
    cases stepped
    unfold refresh
    split
    · exact ⟨inFlight, waits⟩
    · simp [inFlight]
  | visibilityChanged =>
    cases stepped
    unfold visibilityChanged
    split
    · exact ⟨inFlight, waits⟩
    · simp [inFlight, waits]
  | stop =>
    cases stepped
    unfold stop clearTimer
    split <;> exact ⟨inFlight, waits⟩
  | fires id =>
    obtain ⟨pending, -⟩ := Option.ite_none_right_eq_some.mp stepped
    simp [steady.timers_eq_nil (steady.busy inFlight)] at pending
  | settles outcome => cases other

theorem settles_resumes {outcome : Outcome T} (steady : Steady s)
    (stepped : step options s (.settles outcome) = some s') (running : s.stopped = false)
    (waits : s.refreshPending = true) : s'.inFlight = true ∨ s'.timer.isSome := by
  obtain ⟨awaited, same⟩ := Option.ite_none_right_eq_some.mp stepped
  have frame := @settle_frame _ options { s with polls := s.polls - 1 } outcome running
  obtain ⟨-, -, -, resumes⟩ :=
    @finish_steady _ options _ (steady.settle awaited running outcome) frame.1
  rw [← Option.some.inj same]
  exact resumes (frame.2.1.trans waits)

theorem step_silent (steady : Steady s) (stepped : step options s event = some s')
    (stopped : s.stopped = true) :
    s'.calls = s.calls := by
  cases event with
  | refresh =>
    cases stepped
    simp [refresh, stopped]
  | visibilityChanged =>
    cases stepped
    simp [visibilityChanged, stopped]
  | stop =>
    cases stepped
    unfold stop clearTimer
    split <;> rfl
  | fires id =>
    obtain ⟨pending, -⟩ := Option.ite_none_right_eq_some.mp stepped
    simp [steady.timers_eq_nil (steady.stopped stopped)] at pending
  | settles outcome =>
    obtain ⟨-, same⟩ := Option.ite_none_right_eq_some.mp stepped
    rw [← Option.some.inj same, settles_stopped outcome stopped]

end Steps

def lastValue (events : List (Event T)) : Option T := (events.filterMap Event.value?).getLast?

structure Reached (events : List (Event T)) (s : State T) : Prop where
  steady : Steady s
  stopped : s.stopped = true ↔ .stop ∈ events
  hasPreparing : s.stopped = false → s.hasPreparing = (lastValue events).any options.hasPreparing

section Runs

variable {options} {s s' : State T} {events later : List (Event T)} {event : Event T}

theorem run_cons : run options s (event :: later) = some s' ↔
    ∃ middle, step options s event = some middle ∧ run options middle later = some s' := by
  simp [run, List.foldlM_cons, Option.bind_eq_some_iff]

theorem lastValue_snoc : lastValue (events ++ [event]) = event.value?.or (lastValue events) := by
  unfold lastValue
  rw [List.filterMap_append, List.getLast?_append]
  cases value : event.value? <;> simp [value]

theorem Reached.step (reached : Reached options events s)
    (stepped : step options s event = some s') :
    Reached options (events ++ [event]) s' := by
  have sound := step_sound reached.steady stepped
  constructor
  · exact sound.steady
  · rw [sound.stopped, reached.stopped, List.mem_append, List.mem_singleton, eq_comm]
  · intro running
    have before : s.stopped = false := by
      have either := mt sound.stopped.mpr (by simp [running])
      simpa using (not_or.mp either).1
    rw [sound.hasPreparing before, lastValue_snoc, reached.hasPreparing before]
    cases event.value? <;> rfl

theorem Reached.run (reached : Reached options events s) (ran : run options s later = some s') :
    Reached options (events ++ later) s' := by
  induction later generalizing events s with
  | nil =>
    cases ran
    simpa using reached
  | cons event later ih =>
    obtain ⟨middle, stepped, ran⟩ := run_cons.mp ran
    rw [List.append_cons]
    exact ih (reached.step stepped) ran

theorem startRevisionPolling_reached : Reached options [] (startRevisionPolling options) := by
  refine ⟨startRevisionPolling_steady, ?_, ?_⟩
  all_goals simp [startRevisionPolling, lastValue]

theorem run_silent (reached : Reached options events s) (stopped : s.stopped = true)
    (ran : run options s later = some s') : s'.calls = s.calls := by
  induction later generalizing events s with
  | nil =>
    cases ran
    rfl
  | cons event later ih =>
    obtain ⟨middle, stepped, ran⟩ := run_cons.mp ran
    have still := (step_sound reached.steady stepped).stopped.mpr (.inl stopped)
    rw [ih (reached.step stepped) still ran, step_silent reached.steady stepped stopped]

theorem run_resumes {outcome : Outcome T} (reached : Reached options events s)
    (inFlight : s.inFlight = true) (waits : s.refreshPending = true)
    (between : ∀ event ∈ later, event.isSettles = false) (running : .stop ∉ events ++ later)
    (ran : run options s (later ++ [.settles outcome]) = some s') :
    s'.inFlight = true ∨ s'.timer.isSome := by
  induction later generalizing events s with
  | nil =>
    obtain ⟨middle, stepped, ran⟩ := run_cons.mp ran
    cases ran
    rw [List.append_nil, ← reached.stopped, Bool.not_eq_true] at running
    exact settles_resumes reached.steady stepped running waits
  | cons event later ih =>
    obtain ⟨middle, stepped, ran⟩ := run_cons.mp ran
    obtain ⟨inFlight', waits'⟩ :=
      step_waits reached.steady stepped (between event List.mem_cons_self) inFlight waits
    rw [List.append_cons] at running
    exact ih (reached.step stepped) inFlight' waits'
      (fun e member => between e (List.mem_cons_of_mem _ member))
      running ran

theorem Agrees.going (agrees : Agrees s) (going : s.inFlight = true ∨ s.timer.isSome) :
    0 < s.polls ∨ s.timers ≠ [] := by
  rcases going with inFlight | set
  · left
    rw [agrees.polls, if_pos inFlight]
    exact Nat.one_pos
  · right
    intro empty
    have timers := agrees.timers
    rw [empty] at timers
    cases timer : s.timer with
    | none => simp [timer] at set
    | some id => simp [timer] at timers

end Runs

structure Safe (events : List (Event T)) (s : State T) : Prop where
  onePoll : s.polls ≤ 1 ∧ s.mostPolls ≤ 1
  oneTimer : s.timers.length ≤ 1 ∧ s.mostTimers ≤ 1
  silent : ∀ later s', run options s (.stop :: later) = some s' → s'.calls = s.calls
  resumes : 0 < s.polls → ∀ between outcome s', (∀ event ∈ between, event.isSettles = false) →
    run options s (.refresh :: between ++ [.settles outcome]) = some s' →
      .stop ∈ events ++ between ∨ 0 < s'.polls ∨ s'.timers ≠ []
  alive : .stop ∉ events → s.terminal = false → (lastValue events).any options.hasPreparing = true →
    0 < s.polls ∨ s.timers ≠ []

theorem startRevisionPolling_safe (events : List (Event T)) (s : State T)
    (ran : run options (startRevisionPolling options) events = some s) : Safe options events s := by
  have reached : Reached options events s := by
    simpa using startRevisionPolling_reached.run ran
  have agrees := reached.steady.toAgrees
  constructor
  · refine ⟨?_, agrees.mostPolls⟩
    rw [agrees.polls]
    split <;> omega
  · refine ⟨?_, agrees.mostTimers⟩
    rw [← List.length_map (·.id), agrees.timers]
    exact Option.length_toList_le
  · intro later s' ran
    obtain ⟨middle, stepped, ran⟩ := run_cons.mp ran
    have stopped := (step_sound reached.steady stepped).stopped.mpr (.inr rfl)
    rw [run_silent (reached.step stepped) stopped ran]
    cases stepped
    unfold stop clearTimer
    split <;> rfl
  · intro awaited between outcome s' others ran
    by_cases stopped : .stop ∈ events ++ between
    · exact .inl stopped
    right
    have running : s.stopped = false := by
      rw [← Bool.not_eq_true, reached.stopped]
      exact fun member => stopped (List.mem_append_left _ member)
    have inFlight := reached.steady.inFlight_of_awaited awaited
    obtain ⟨middle, stepped, ran⟩ := run_cons.mp ran
    have waiting := reached.step stepped
    have unstopped : .stop ∉ (events ++ [.refresh]) ++ between := by simpa using stopped
    rw [step, refresh_waits running inFlight] at stepped
    cases stepped
    apply (waiting.run ran).steady.toAgrees.going
    exact run_resumes waiting inFlight rfl others unstopped ran
  · intro unstopped unfinished preparing
    have running : s.stopped = false := by
      rw [← Bool.not_eq_true, reached.stopped]
      exact unstopped
    apply agrees.going
    exact reached.steady.alive running unfinished ((reached.hasPreparing running).trans preparing)

/-- A poll says that a revision is being prepared, its timer fires, a refresh comes during the next
poll, which fails. -/
theorem startRevisionPolling_safe_refreshed :
    let options : RevisionPollingOptions Bool := ⟨id, true, true, fun _ => false, none, none, none⟩
    let events : List (Event Bool) :=
      [.refresh, .settles (.resolved ⟨true, none⟩), .fires 0, .refresh,
      .settles (.rejected none)]
    ∃ s, run options (startRevisionPolling options) events = some s ∧ s.inFlight = true ∧
      Safe options events s :=
  ⟨_, rfl, rfl, startRevisionPolling_safe _ _ _ rfl⟩

end RevisionPolling

end RepoLens
