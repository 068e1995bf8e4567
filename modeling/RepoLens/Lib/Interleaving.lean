import Mathlib

/-!
Programs that run side by side and share one world. A program is a tree of calls; each call is one
atomic step on the world, and between two calls of a program any number of steps of the others may
happen.
-/

namespace Interleaving

structure Interface where
  Call : Type
  Reply : Call → Type

inductive Program (I : Interface) (α : Type) : Type
  | done (a : α)
  | call (c : I.Call) (next : I.Reply c → Program I α)

namespace Program

variable {I : Interface} {α β : Type}

def bind : Program I α → (α → Program I β) → Program I β
  | .done a, f => f a
  | .call c next, f => .call c fun reply => (next reply).bind f

instance : Monad (Program I) where
  pure := .done
  bind := bind

def ask (c : I.Call) : Program I (I.Reply c) := .call c .done

inductive Trace : Program I α → List ((c : I.Call) × I.Reply c) → Program I α → Prop
  | here {program : Program I α} : Trace program [] program
  | call {c : I.Call} {next : I.Reply c → Program I α} {reply : I.Reply c}
      {calls : List ((c : I.Call) × I.Reply c)} {rest : Program I α} :
      Trace (next reply) calls rest → Trace (.call c next) (⟨c, reply⟩ :: calls) rest

variable {calls : List ((c : I.Call) × I.Reply c)}

theorem Trace.of_pure {a : α} {rest : Program I α}
    (trace : Trace (pure a : Program I α) calls rest) : calls = [] ∧ rest = .done a := by
  cases trace
  exact ⟨rfl, rfl⟩

theorem Trace.of_ask {c : I.Call} {f : I.Reply c → Program I α} {rest : Program I α}
    (trace : Trace (ask c >>= f) calls rest) :
    (calls = [] ∧ rest = ask c >>= f) ∨
      ∃ reply later, calls = ⟨c, reply⟩ :: later ∧ Trace (f reply) later rest := by
  cases trace with
  | here => exact .inl ⟨rfl, rfl⟩
  | call trace => exact .inr ⟨_, _, rfl, trace⟩

theorem Trace.of_bind {program : Program I α} {f : α → Program I β} {rest : Program I β}
    (trace : Trace (program >>= f) calls rest) :
    (∃ c next, Trace program calls (.call c next) ∧ rest = .call c next >>= f) ∨
      ∃ a first second, calls = first ++ second ∧ Trace program first (.done a) ∧
        Trace (f a) second rest := by
  induction program generalizing calls with
  | done a => exact .inr ⟨a, [], calls, rfl, .here, trace⟩
  | call c next ih =>
    cases trace with
    | here => exact .inl ⟨c, next, .here, rfl⟩
    | @call _ _ reply later _ trace =>
      rcases ih reply trace with
        ⟨c', next', inside, left⟩ | ⟨a, first, second, rfl, ended, after⟩
      · exact .inl ⟨c', next', .call inside, left⟩
      · exact .inr ⟨a, ⟨c, reply⟩ :: first, second, rfl, .call ended, after⟩

end Program

/-- How a call of a process acts on the world, given what the outside answers,
and how the world moves on its own, possibly starting new processes. -/
structure Machine (I : Interface) (World Pid Oracle Move : Type) where
  perform : Pid → (c : I.Call) → World → Oracle → Option (I.Reply c × World)
  move : Move → World → Option (World × List (Pid × Program I Unit))

structure State (I : Interface) (World Pid : Type) where
  world : World
  procs : Pid → Option (Program I Unit)

/-- A process makes its next call, a process ends or crashes, or the world
moves. -/
inductive Action (Pid Oracle Move : Type) where
  | perform (pid : Pid) (oracle : Oracle)
  | stop (pid : Pid)
  | move (m : Move)

section Steps

variable {I : Interface} {World Pid Oracle Move : Type} [DecidableEq Pid]

def start (procs : Pid → Option (Program I Unit)) :
    List (Pid × Program I Unit) → Pid → Option (Program I Unit)
  | [] => procs
  | (pid, program) :: rest => start (Function.update procs pid (some program)) rest

def Machine.step (M : Machine I World Pid Oracle Move) (s : State I World Pid) :
    Action Pid Oracle Move → Option (State I World Pid)
  | .perform pid oracle =>
    match s.procs pid with
    | some (.call c next) =>
      (M.perform pid c s.world oracle).map fun (reply, world) =>
        { world, procs := Function.update s.procs pid (some (next reply)) }
    | _ => none
  | .stop pid => some { s with procs := Function.update s.procs pid none }
  | .move m =>
    (M.move m s.world).map fun (world, started) =>
      { world, procs := start s.procs started }

/-- A run all of whose steps meet `ok` in the state they start from. -/
inductive RunWhere (M : Machine I World Pid Oracle Move)
    (ok : State I World Pid → Action Pid Oracle Move → Prop) (init : State I World Pid) :
    State I World Pid → Prop
  | start : RunWhere M ok init init
  | step {s s' : State I World Pid} {a : Action Pid Oracle Move} :
      RunWhere M ok init s → ok s a → M.step s a = some s' → RunWhere M ok init s'

def Machine.Run (M : Machine I World Pid Oracle Move) (init s : State I World Pid) : Prop :=
  RunWhere M (fun _ _ => True) init s

/-- The steps of a run one after the other, each with the states around it; all of
them meet `ok`. -/
inductive Path (M : Machine I World Pid Oracle Move)
    (ok : State I World Pid → Action Pid Oracle Move → Prop) :
    State I World Pid → List (State I World Pid × Action Pid Oracle Move × State I World Pid) →
    State I World Pid → Prop
  | nil {s : State I World Pid} : Path M ok s [] s
  | cons {s s' last : State I World Pid} {a : Action Pid Oracle Move}
      {steps : List (State I World Pid × Action Pid Oracle Move × State I World Pid)} :
      ok s a → M.step s a = some s' → Path M ok s' steps last →
      Path M ok s ((s, a, s') :: steps) last

def Machine.exec (M : Machine I World Pid Oracle Move) (s : State I World Pid) :
    List (Action Pid Oracle Move) → Option (State I World Pid)
  | [] => some s
  | a :: rest =>
    match M.step s a with
    | some s' => M.exec s' rest
    | none => none

def Machine.execWhile (M : Machine I World Pid Oracle Move)
    (test : State I World Pid → Action Pid Oracle Move → Bool) (s : State I World Pid) :
    List (Action Pid Oracle Move) → Option (State I World Pid)
  | [] => some s
  | a :: rest =>
    match test s a, M.step s a with
    | true, some s' => M.execWhile test s' rest
    | _, _ => none

variable {M : Machine I World Pid Oracle Move}
  {ok : State I World Pid → Action Pid Oracle Move → Prop} {s s' s'' : State I World Pid}

theorem RunWhere.weaken {ok' : State I World Pid → Action Pid Oracle Move → Prop}
    (run : RunWhere M ok s s') (implies : ∀ s a, ok s a → ok' s a) : RunWhere M ok' s s' := by
  induction run with
  | start => exact .start
  | step _ holds stepped ih => exact .step ih (implies _ _ holds) stepped

theorem RunWhere.trans (first : RunWhere M ok s s') (second : RunWhere M ok s' s'') :
    RunWhere M ok s s'' := by
  induction second with
  | start => exact first
  | step _ holds stepped ih => exact .step ih holds stepped

theorem Path.reached {steps : List (State I World Pid × Action Pid Oracle Move × State I World Pid)}
    {a : Action Pid Oracle Move} {before after last : State I World Pid}
    (path : Path M ok s steps last) (member : (before, a, after) ∈ steps) :
    RunWhere M ok s before ∧ ok before a ∧ M.step before a = some after := by
  induction path with
  | nil => cases member
  | cons holds stepped _ ih =>
    rcases List.mem_cons.mp member with here | later
    · cases here
      exact ⟨.start, holds, stepped⟩
    · obtain ⟨reached, met, moved⟩ := ih later
      exact ⟨(RunWhere.step .start holds stepped).trans reached, met, moved⟩

theorem Path.append
    {steps steps' : List (State I World Pid × Action Pid Oracle Move × State I World Pid)}
    (first : Path M ok s steps s') (second : Path M ok s' steps' s'') :
    Path M ok s (steps ++ steps') s'' := by
  induction first with
  | nil => exact second
  | cons holds stepped _ ih => exact .cons holds stepped (ih second)

variable {actions : List (Action Pid Oracle Move)}

theorem Machine.exec_path (ran : M.exec s actions = some s') (meets : ∀ a ∈ actions, ∀ s, ok s a) :
    ∃ steps, Path M ok s steps s' := by
  induction actions generalizing s with
  | nil =>
    cases ran
    exact ⟨[], .nil⟩
  | cons a rest ih =>
    rw [Machine.exec] at ran
    split at ran
    · next middle stepped =>
        obtain ⟨steps, path⟩ := ih ran fun later member =>
          meets later (List.mem_cons_of_mem _ member)
        exact ⟨_, .cons (meets a List.mem_cons_self s) stepped path⟩
    · cases ran

theorem Machine.execWhile_run {test : State I World Pid → Action Pid Oracle Move → Bool}
    (ran : M.execWhile test s actions = some s') (passes : ∀ s a, test s a = true → ok s a) :
    RunWhere M ok s s' := by
  induction actions generalizing s with
  | nil =>
    cases ran
    exact .start
  | cons a rest ih =>
    simp only [Machine.execWhile] at ran
    split at ran
    · next s₁ passed stepped =>
        exact RunWhere.trans (.step .start (passes s a passed) stepped) (ih ran)
    · cases ran

theorem Machine.exec_run (ran : M.exec s actions = some s') : M.Run s s' := by
  induction actions generalizing s with
  | nil =>
    cases ran
    exact .start
  | cons a rest ih =>
    rw [Machine.exec] at ran
    split at ran
    · next middle stepped =>
        exact (RunWhere.step .start trivial stepped).trans (ih ran)
    · cases ran

theorem Machine.step_cases {a : Action Pid Oracle Move} (stepped : M.step s a = some s') :
    (∃ pid oracle c next reply, a = .perform pid oracle ∧ s.procs pid = some (.call c next) ∧
      M.perform pid c s.world oracle = some (reply, s'.world) ∧
      s'.procs = Function.update s.procs pid (some (next reply))) ∨
    (∃ pid, a = .stop pid ∧ s'.world = s.world ∧ s'.procs = Function.update s.procs pid none) ∨
    (∃ m started, a = .move m ∧ M.move m s.world = some (s'.world, started) ∧
      s'.procs = start s.procs started) := by
  cases a with
  | perform pid oracle =>
    left
    simp only [Machine.step] at stepped
    split at stepped
    · next c next live =>
        obtain ⟨⟨reply, world⟩, performed, rfl⟩ := Option.map_eq_some_iff.mp stepped
        exact ⟨pid, oracle, c, next, reply, rfl, live, performed, rfl⟩
    · cases stepped
  | stop pid =>
    cases stepped
    exact .inr (.inl ⟨pid, rfl, rfl, rfl⟩)
  | move m =>
    obtain ⟨⟨world, started⟩, moved, rfl⟩ := Option.map_eq_some_iff.mp stepped
    exact .inr (.inr ⟨m, started, rfl, moved, rfl⟩)

theorem start_some {procs : Pid → Option (Program I Unit)} {started : List (Pid × Program I Unit)}
    {pid : Pid} {program : Program I Unit} (live : start procs started pid = some program) :
    (pid, program) ∈ started ∨ procs pid = some program := by
  induction started generalizing procs with
  | nil => exact .inr live
  | cons entry rest ih =>
    obtain ⟨entryPid, entryProgram⟩ := entry
    rcases ih live with member | inherited
    · exact .inl (List.mem_cons_of_mem _ member)
    · by_cases same : pid = entryPid
      · subst same
        rw [Function.update_self] at inherited
        cases inherited
        exact .inl List.mem_cons_self
      · rw [Function.update_of_ne same] at inherited
        exact .inr inherited

end Steps

section Alone

variable {I : Interface} {World Pid Oracle Move : Type} {α β : Type}

/-- A process runs to its end while nobody else moves, with answers from outside
that meet `ok`. -/
inductive Alone (M : Machine I World Pid Oracle Move) (ok : I.Call → Oracle → Prop) (pid : Pid) :
    Program I α → World → α → World → Prop
  | done {a : α} {w : World} : Alone M ok pid (.done a) w a w
  | call {c : I.Call} {next : I.Reply c → Program I α} {w w₁ w₂ : World} {oracle : Oracle}
      {reply : I.Reply c} {a : α} (answered : ok c oracle)
      (performed : M.perform pid c w oracle = some (reply, w₁))
      (rest : Alone M ok pid (next reply) w₁ a w₂) : Alone M ok pid (.call c next) w a w₂

namespace Alone

variable {M : Machine I World Pid Oracle Move} {ok : I.Call → Oracle → Prop} {pid : Pid}
  {w w' : World}

@[simp]
theorem pure_iff {a b : α} :
    Alone M ok pid (pure a : Program I α) w b w' ↔ b = a ∧ w' = w := by
  constructor
  · rintro ⟨⟩
    exact ⟨rfl, rfl⟩
  · rintro ⟨rfl, rfl⟩
    exact .done

@[simp]
theorem ask_iff {c : I.Call} {reply : I.Reply c} :
    Alone M ok pid (Program.ask c) w reply w' ↔
      ∃ oracle, ok c oracle ∧ M.perform pid c w oracle = some (reply, w') := by
  constructor
  · rintro (_ | ⟨answered, performed, ⟨⟩⟩)
    exact ⟨_, answered, performed⟩
  · rintro ⟨oracle, answered, performed⟩
    exact .call answered performed .done

@[simp]
theorem bind_iff {program : Program I α} {rest : α → Program I β} {b : β} :
    Alone M ok pid (program >>= rest) w b w' ↔
      ∃ a w₁, Alone M ok pid program w a w₁ ∧ Alone M ok pid (rest a) w₁ b w' := by
  constructor
  · intro ran
    induction program generalizing w with
    | done a => exact ⟨a, w, .done, ran⟩
    | call c next ih =>
      obtain _ | ⟨answered, performed, ranRest⟩ := ran
      obtain ⟨a, w₁, first, second⟩ := ih _ ranRest
      exact ⟨a, w₁, .call answered performed first, second⟩
  · rintro ⟨a, w₁, first, second⟩
    induction first with
    | done => exact second
    | call answered performed _ ih => exact .call answered performed (ih second)

end Alone

end Alone

/-- What the worlds of a machine satisfy, which calls a process may make in
which world, and what a process relies on while others move. -/
structure Discipline (I : Interface) (World Pid : Type) where
  Inv : World → Prop
  allowed : Pid → I.Call → World → Prop
  rely : Pid → World → World → Prop

section Discipline

variable {I : Interface} {World Pid Oracle Move : Type} {α β : Type}

/-- Every call of the program is allowed where it is made, whatever the others
did before it within the rely, and the program ends in the postcondition. -/
def Safe (M : Machine I World Pid Oracle Move) (D : Discipline I World Pid) (pid : Pid) :
    Program I α → (α → World → Prop) → World → Prop
  | .done a, post, w => post a w
  | .call c next, post, w =>
    ∀ w₁, D.rely pid w w₁ → D.Inv w₁ →
      D.allowed pid c w₁ ∧
        ∀ oracle reply w₂, M.perform pid c w₁ oracle = some (reply, w₂) → D.Inv w₂ →
          Safe M D pid (next reply) post w₂

variable {M : Machine I World Pid Oracle Move} {D : Discipline I World Pid} {pid : Pid}

theorem Safe.weaken {program : Program I α} {post post' : α → World → Prop} {w : World}
    (safe : Safe M D pid program post w) (implies : ∀ a w, post a w → post' a w) :
    Safe M D pid program post' w := by
  induction program generalizing w with
  | done a => exact implies a w safe
  | call c next ih =>
    intro w₁ relied holds
    obtain ⟨allowed, continues⟩ := safe w₁ relied holds
    exact ⟨allowed, fun oracle reply w₂ performed after =>
      ih reply (continues oracle reply w₂ performed after)⟩

theorem Safe.bind {program : Program I α} {rest : α → Program I β} {post : β → World → Prop}
    {w : World} (safe : Safe M D pid program (fun a => Safe M D pid (rest a) post) w) :
    Safe M D pid (program >>= rest) post w := by
  induction program generalizing w with
  | done a => exact safe
  | call c next ih =>
    intro w₁ relied holds
    obtain ⟨allowed, continues⟩ := safe w₁ relied holds
    exact ⟨allowed, fun oracle reply w₂ performed after =>
      ih reply (continues oracle reply w₂ performed after)⟩

/-- An assertion that the steps of others within the rely cannot break. -/
def Stable (D : Discipline I World Pid) (pid : Pid) (P : World → Prop) : Prop :=
  ∀ w w', D.rely pid w w' → D.Inv w' → P w → P w'

theorem Safe.ask {c : I.Call} {P : World → Prop} {post : I.Reply c → World → Prop} {w : World}
    (stable : Stable D pid P) (holds : P w) (allowed : ∀ w, D.Inv w → P w → D.allowed pid c w)
    (continues : ∀ w oracle reply w', D.Inv w → P w →
      M.perform pid c w oracle = some (reply, w') → D.Inv w' → post reply w') :
    Safe M D pid (Program.ask c) post w := by
  intro w₁ relied inv
  have there := stable w w₁ relied inv holds
  exact ⟨allowed w₁ inv there, fun oracle reply w₂ performed after =>
    continues w₁ oracle reply w₂ inv there performed after⟩

/-- What has to be checked once: an allowed call and a move keep the invariant,
stay within what the other processes rely on, and new processes are safe. -/
structure Discipline.Sound (M : Machine I World Pid Oracle Move) (D : Discipline I World Pid) :
    Prop where
  rely_trans : ∀ {pid w w₁ w₂}, D.rely pid w w₁ → D.rely pid w₁ w₂ → D.rely pid w w₂
  perform_inv : ∀ {pid c w oracle reply w'}, D.Inv w → D.allowed pid c w →
    M.perform pid c w oracle = some (reply, w') → D.Inv w'
  perform_rely : ∀ {pid c w oracle reply w' other}, D.Inv w → D.allowed pid c w →
    M.perform pid c w oracle = some (reply, w') → other ≠ pid → D.rely other w w'
  rely_refl : ∀ {pid w}, D.rely pid w w
  move_inv : ∀ {m w w' started}, D.Inv w → M.move m w = some (w', started) → D.Inv w'
  move_rely : ∀ {m w w' started pid}, D.Inv w → M.move m w = some (w', started) →
    D.rely pid w w'
  started_safe : ∀ {m w w' started pid program}, D.Inv w → D.Inv w' →
    M.move m w = some (w', started) → (pid, program) ∈ started →
    Safe M D pid program (fun _ _ => True) w'

structure Discipline.Holds (M : Machine I World Pid Oracle Move) (D : Discipline I World Pid)
    (s : State I World Pid) : Prop where
  inv : D.Inv s.world
  safe : ∀ pid program, s.procs pid = some program →
    Safe M D pid program (fun _ _ => True) s.world

theorem Safe.relied (sound : D.Sound M) {program : Program I α} {w w' : World}
    (safe : Safe M D pid program (fun _ _ => True) w) (relied : D.rely pid w w') :
    Safe M D pid program (fun _ _ => True) w' := by
  cases program with
  | done a => trivial
  | call c next => exact fun w₁ further => safe w₁ (sound.rely_trans relied further)

variable [DecidableEq Pid]

theorem Discipline.Sound.step (sound : D.Sound M) {s s' : State I World Pid}
    {a : Action Pid Oracle Move} (holds : D.Holds M s) (stepped : M.step s a = some s') :
    D.Holds M s' := by
  rcases Machine.step_cases stepped with
    ⟨mover, oracle, c, next, reply, rfl, live, performed, procs⟩ |
    ⟨mover, rfl, world, procs⟩ | ⟨m, started, rfl, moved, procs⟩
  · obtain ⟨allowed, continues⟩ :=
      holds.safe mover _ live s.world sound.rely_refl holds.inv
    have after := sound.perform_inv holds.inv allowed performed
    refine ⟨after, fun pid program running => ?_⟩
    rw [procs] at running
    by_cases same : pid = mover
    · subst same
      rw [Function.update_self] at running
      cases running
      exact continues oracle reply _ performed after
    · rw [Function.update_of_ne same] at running
      exact (holds.safe pid program running).relied sound
        (sound.perform_rely holds.inv allowed performed same)
  · refine ⟨world ▸ holds.inv, fun pid program running => ?_⟩
    rw [procs] at running
    by_cases same : pid = mover
    · subst same
      rw [Function.update_self] at running
      cases running
    · rw [Function.update_of_ne same] at running
      exact world ▸ holds.safe pid program running
  · have after := sound.move_inv holds.inv moved
    refine ⟨after, fun pid program running => ?_⟩
    rw [procs] at running
    rcases start_some running with member | inherited
    · exact sound.started_safe holds.inv after moved member
    · exact (holds.safe pid program inherited).relied sound (sound.move_rely holds.inv moved)

theorem Discipline.Sound.run (sound : D.Sound M) {init s : State I World Pid}
    {ok : State I World Pid → Action Pid Oracle Move → Prop}
    (initial : D.Holds M init) (ran : RunWhere M ok init s) : D.Holds M s := by
  induction ran with
  | start => exact initial
  | step _ _ stepped ih => exact sound.step ih stepped

theorem Discipline.Sound.preserves (sound : D.Sound M) {P : World → Prop}
    {init s : State I World Pid} {ok : State I World Pid → Action Pid Oracle Move → Prop}
    (performs : ∀ {s pid c next oracle reply w'}, ok s (.perform pid oracle) →
      s.procs pid = some (.call c next) → D.Inv s.world → P s.world →
      D.allowed pid c s.world → M.perform pid c s.world oracle = some (reply, w') → P w')
    (moves : ∀ {s m w' started}, ok s (.move m) → D.Inv s.world → P s.world →
      M.move m s.world = some (w', started) → P w')
    (initial : D.Holds M init) (start : P init.world) (ran : RunWhere M ok init s) :
    P s.world := by
  induction ran with
  | start => exact start
  | @step before _ _ ran holds stepped ih =>
    have there := sound.run initial ran
    rcases Machine.step_cases stepped with
      ⟨mover, oracle, c, next, reply, rfl, live, performed, -⟩ |
      ⟨mover, rfl, world, -⟩ | ⟨m, started, rfl, moved, -⟩
    · obtain ⟨allowed, -⟩ := there.safe mover _ live before.world sound.rely_refl there.inv
      exact performs holds live there.inv ih allowed performed
    · exact world ▸ ih
    · exact moves holds there.inv ih moved

end Discipline

end Interleaving
