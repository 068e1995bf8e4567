import RepoLens.Artifacts
import RepoLens.EvidenceIssue
import RepoLens.ManifestFiles

/-!
What a row refers to is there: an artifact that a build was finalized with stays whole beside all
executions and cleanups.
-/

namespace RepoLens

namespace Artifacts

open Interleaving Evidence

variable {Index E : Type} {p : Publisher Index E} {w w' : World E} {e : E}

namespace Publisher
variable {dir : Path} {content : Option Dir} {pid : Proc E} {started : List (Proc E × Prog Unit)}

def tmp (p : Publisher Index E) (e : E) : Path := (p.execution e).tmpDir

def final (p : Publisher Index E) (e : E) : Path := (p.execution e).finalDir p.sha

/-- The row that an execution finalizes. -/
def row (p : Publisher Index E) (e : E) : Row :=
  ⟨(p.execution e).buildID, p.final e, p.sha.hex (p.codec.save (p.execution e).index)⟩

/-- The staging directory of an execution and the one that it publishes. -/
def Owns (p : Publisher Index E) (e : E) (dir : Path) : Prop := dir = p.tmp e ∨ dir = p.final e

theorem tmp_ne_final (p : Publisher Index E) (one two : E) : p.tmp one ≠ p.final two := by
  simp [tmp, final, Execution.tmpDir, Execution.finalDir]

theorem Owns.unique {one two : E} (first : p.Owns one dir) (second : p.Owns two dir) :
    one = two := by
  rcases first with rfl | rfl <;> rcases second with same | same
  · exact p.tmpDir_apart same
  · exact absurd same (p.tmp_ne_final one two)
  · exact absurd same.symm (p.tmp_ne_final two one)
  · exact p.finalDir_apart same

end Publisher

/-- The directory holds the index of an execution and a manifest that fits it. -/
structure Complete (p : Publisher Index E) (e : E) (d : Dir) : Prop where
  index : d.files .index = some (p.codec.save (p.execution e).index)
  manifest : ∃ documents createdAt, d.files .manifest = some (p.codec.marshal
    ⟨(p.execution e).buildID, p.strategy (p.execution e).buildID, documents,
      p.sha.hex (p.codec.save (p.execution e).index), createdAt⟩)

theorem hex_ne_empty (sha : Sha256) (content : Bytes) : sha.hex content ≠ "" := by
  intro empty
  have digits := sha.digits content
  simp [empty, SnapshotPolicy.validHash] at digits

theorem Complete.load {d : Dir} (complete : Complete p e d) (there : w.dirs (p.final e) = some d) :
    p.loadIndexVerified w (p.final e) (p.row e).buildID (p.row e).artifactHash
      (some (p.strategy (p.row e).buildID)) =
        p.codec.load (p.codec.save (p.execution e).index) := by
  obtain ⟨documents, createdAt, manifest⟩ := complete.manifest
  simp [Publisher.loadIndexVerified, Publisher.row, there, manifest, complete.index,
    p.codec.faithful, hex_ne_empty]

/-- The execution has used up the time that a cleanup grants. -/
def World.Late (w : World E) (ttl : Nat) (e : E) : Prop :=
  ∃ t, w.started e = some t ∧ t + ttl < w.clock

theorem World.live_iff {ttl : Nat} :
    w.live ttl e = true ↔ ∃ t, w.started e = some t ∧ w.clock ≤ t + ttl := by
  cases started : w.started e <;> simp [World.live, started]

theorem World.not_late {ttl : Nat} (live : w.live ttl e = true) : ¬ w.Late ttl e := by
  rintro ⟨t, started, late⟩
  obtain ⟨t', started', inTime⟩ := World.live_iff.mp live
  cases started.symm.trans started'
  omega

def Published (p : Publisher Index E) (e : E) (w : World E) : Prop :=
  ∃ d, w.dirs (p.final e) = some d ∧ Complete p e d

structure World.Inv (p : Publisher Index E) (w : World E) : Prop where
  rows : ∀ row ∈ w.rows, ∃ e, row = p.row e ∧ Published p e w
  dirs : ∀ {e dir d}, p.Owns e dir → w.dirs dir = some d → ∃ t, w.started e = some t ∧ t ≤ d.modTime
  clock : ∀ {e t}, w.started e = some t → t ≤ w.clock

/-- No row refers to the directory, and none will: its execution is late. -/
structure Removable (p : Publisher Index E) (dir : Path) (w : World E) : Prop where
  unreferenced : ∀ row ∈ w.rows, row.artifactPath ≠ dir
  late : ∀ {e}, p.Owns e dir → w.Late p.ttl e

def mayCall (p : Publisher Index E) (e : E) (w : World E) : Call → Prop
  | .mkdirTemp dir | .write dir _ _ | .removeFile dir _ | .removeDir dir => dir = p.tmp e
  | .rename old new => old = p.tmp e ∧ new = p.final e
  | .finalize row => row = p.row e ∧ Published p e w
  | _ => True

def mayClean (p : Publisher Index E) (w : World E) : Call → Prop
  | .removeFile dir _ | .removeDir dir => Removable p dir w
  | .mkdirTemp _ | .write _ _ _ | .rename _ _ | .finalize _ => False
  | _ => True

/-- While an execution is not late, its directories are left to it, and only executions that are
not late add rows. -/
structure Rely (p : Publisher Index E) (pid : Proc E) (w w' : World E) : Prop where
  clock : w.clock ≤ w'.clock
  started : ∀ {e t}, w.started e = some t → w'.started e = some t
  rows : ∀ row ∈ w'.rows, row ∈ w.rows ∨
    ∃ e t, row.artifactPath = p.final e ∧ w'.started e = some t ∧ w.clock ≤ t + p.ttl
  dirs : ∀ {e dir}, pid = .execution e → p.Owns e dir → ¬ w'.Late p.ttl e →
    w'.dirs dir = w.dirs dir

def discipline (p : Publisher Index E) : Discipline Api (World E) (Proc E) where
  Inv := World.Inv p
  allowed
    | .execution e, c, w => w.live p.ttl e = true → mayCall p e w c
    | .cleaner _, c, w => mayClean p w c
  rely := Rely p

theorem World.put_self : (w.put dir content).dirs dir = content :=
  Function.update_self ..

theorem World.put_of_ne {other : Path} (apart : other ≠ dir) :
    (w.put dir content).dirs other = w.dirs other :=
  Function.update_of_ne apart ..

def Call.target : Call → Option Path
  | .mkdirTemp dir | .write dir _ _ | .removeFile dir _ | .removeDir dir => some dir
  | _ => none

/-- Everything that a call can do to the world. -/
theorem effect_cases (w : World E) (o : Oracle) (c : Call) :
    (effect w o c).2 = w ∨
    (∃ dir content, c.target = some dir ∧ (effect w o c).2 = w.put dir content ∧
      ∀ d, content = some d → d.modTime = w.clock ∨
        ∃ d', w.dirs dir = some d' ∧ d.modTime = d'.modTime) ∨
    (∃ old new d, c = .rename old new ∧ w.dirs old = some d ∧
      (w.dirs new).all Dir.isEmpty = true ∧ (effect w o c).2 = (w.put old none).put new (some d)) ∨
    (∃ row, c = .finalize row ∧ (effect w o c).2 =
      { w with rows := row :: w.rows.filter (·.buildID ≠ row.buildID) }) := by
  cases c with
  | io | now | read | pluck | readDir | info => exact .inl rfl
  | mkdirTemp dir =>
    simp only [effect]
    split
    · exact .inr (.inl ⟨dir, _, rfl, rfl, by rintro d ⟨⟩; exact .inl rfl⟩)
    · exact .inl rfl
  | write dir file data =>
    simp only [effect, within]
    split
    · exact .inl rfl
    · next d there =>
        refine .inr (.inl ⟨dir, _, rfl, rfl, ?_⟩)
        rintro _ ⟨⟩
        simp only [Dir.write]
        split
        · exact .inr ⟨d, there, rfl⟩
        · exact .inl rfl
  | rename old new =>
    simp only [effect, within]
    split
    · exact .inl rfl
    · next d there =>
        split
        · next free =>
            exact .inr (.inr (.inl ⟨old, new, d, rfl, there, (Bool.and_eq_true _ _ ▸ free).2, rfl⟩))
        · exact .inl rfl
  | finalize row =>
    simp only [effect]
    split
    · exact .inr (.inr (.inr ⟨row, rfl, rfl⟩))
    · exact .inl rfl
  | removeFile dir file =>
    simp only [effect]
    split
    · exact .inl rfl
    · exact .inl rfl
    · exact .inr (.inl ⟨dir, _, rfl, rfl, by rintro _ ⟨⟩; exact .inl rfl⟩)
  | removeDir dir =>
    simp only [effect]
    split
    · exact .inl rfl
    · exact .inl rfl
    · split
      · exact .inr (.inl ⟨dir, none, rfl, rfl, by simp⟩)
      · exact .inl rfl

theorem effect_frame (w : World E) (o : Oracle) (c : Call) :
    (effect w o c).2.clock = w.clock ∧ (effect w o c).2.started = w.started := by
  rcases effect_cases w o c with
    same | ⟨_, _, _, same, _⟩ | ⟨_, _, _, _, _, _, same⟩ |
      ⟨_, _, same⟩ <;> rw [same] <;> exact ⟨rfl, rfl⟩

/-- What is known of a directory that an allowed call has changed. -/
structure Touched (p : Publisher Index E) (pid : Proc E) (w : World E) (dir : Path)
    (content : Option Dir) : Prop where
  unreferenced : ∀ row ∈ w.rows, row.artifactPath ≠ dir
  owner : ∀ {e}, p.Owns e dir → pid = .execution e ∨ w.Late p.ttl e
  modTime : ∀ {e d}, p.Owns e dir → content = some d → ∃ t, w.started e = some t ∧ t ≤ d.modTime

section Allowed

variable {pid : Proc E} {c : Call} (inv : w.Inv p) (allowed : (discipline p).allowed pid c w)
  (live : ∀ e, pid = .execution e → w.live p.ttl e = true)
include inv allowed live

theorem touched_target (target : c.target = some dir)
    (times : ∀ d, content = some d → d.modTime = w.clock ∨ ∃ d', w.dirs dir = some d' ∧
      d.modTime = d'.modTime) :
    Touched p pid w dir content := by
  have known : (∀ row ∈ w.rows, row.artifactPath ≠ dir) ∧
      ∀ {e}, p.Owns e dir → (pid = .execution e ∨ w.Late p.ttl e) ∧ ∃ t, w.started e = some t := by
    cases pid with
    | execution e =>
      have same : dir = p.tmp e := by
        have may := allowed (live e rfl)
        cases c <;> cases target <;> exact may
      refine ⟨fun row member => ?_, fun own => ?_⟩
      · obtain ⟨e', rfl, -⟩ := inv.rows row member
        exact same ▸ (p.tmp_ne_final e e').symm
      · obtain rfl := own.unique (.inl same)
        obtain ⟨t, started, -⟩ := World.live_iff.mp (live _ rfl)
        exact ⟨.inl rfl, t, started⟩
    | cleaner n =>
      have removable : Removable p dir w := by
        cases c <;> cases target <;> first | exact allowed | exact allowed.elim
      refine ⟨removable.unreferenced, fun own => ⟨.inr (removable.late own), ?_⟩⟩
      obtain ⟨t, started, -⟩ := removable.late own
      exact ⟨t, started⟩
  refine ⟨known.1, fun own => (known.2 own).1, fun {e d} own there => ?_⟩
  obtain ⟨-, t, started⟩ := known.2 own
  rcases times d there with now | ⟨d', before, modTime⟩
  · exact ⟨t, started, now ▸ inv.clock started⟩
  · exact modTime ▸ inv.dirs own before

omit inv in
/-- Only executions rename and finalize. -/
theorem executing (kind : (∃ old new, c = .rename old new) ∨ ∃ row, c = .finalize row) :
    ∃ e, pid = .execution e ∧ w.live p.ttl e = true ∧ mayCall p e w c := by
  cases pid with
  | execution e => exact ⟨e, rfl, live e rfl, allowed (live e rfl)⟩
  | cleaner n => rcases kind with ⟨old, new, rfl⟩ | ⟨row, rfl⟩ <;> exact allowed.elim

theorem effect_dirs (o : Oracle) (dir : Path) : (effect w o c).2.dirs dir = w.dirs dir ∨
    Touched p pid w dir ((effect w o c).2.dirs dir) := by
  rcases effect_cases w o c with
    same | ⟨target, content, targets, put, times⟩ | ⟨old, new, d, rfl, there, free, moved⟩ |
    ⟨row, rfl, added⟩
  · exact .inl (by rw [same])
  · by_cases same : dir = target
    · subst same
      rw [put, World.put_self]
      exact .inr (touched_target inv allowed live targets times)
    · exact .inl (by rw [put, World.put_of_ne same])
  · obtain ⟨e, rfl, -, rfl, rfl⟩ := executing allowed live (.inl ⟨_, _, rfl⟩)
    rw [moved]
    by_cases final : dir = p.final e
    · subst final
      rw [World.put_self]
      refine .inr ⟨fun row member same => ?_, fun own => .inl ?_, fun own found => ?_⟩
      · obtain ⟨e', rfl, d', found, complete⟩ := inv.rows row member
        rw [← same, show (p.row e').artifactPath = p.final e' from rfl, found] at free
        simp [Dir.isEmpty, complete.index] at free
      · rw [own.unique (.inr rfl)]
      · cases found
        exact own.unique (.inr rfl) ▸ inv.dirs (.inl rfl) there
    · rw [World.put_of_ne final]
      by_cases staged : dir = p.tmp e
      · subst staged
        rw [World.put_self]
        refine .inr ⟨fun row member => ?_, fun own => .inl ?_, by simp⟩
        · obtain ⟨e', rfl, -⟩ := inv.rows row member
          exact (p.tmp_ne_final e e').symm
        · rw [own.unique (.inl rfl)]
      · exact .inl (World.put_of_ne staged)
  · exact .inl (by rw [added])

omit inv in
theorem effect_rows (o : Oracle) {row : Row} (member : row ∈ (effect w o c).2.rows) :
    row ∈ w.rows ∨ ∃ e, w.live p.ttl e = true ∧ row = p.row e ∧ Published p e w ∧
      (effect w o c).2.dirs = w.dirs := by
  rcases effect_cases w o c with
    same | ⟨_, _, _, same, -⟩ | ⟨_, _, _, rfl, -, -, same⟩ | ⟨added, rfl, same⟩
  iterate 3 exact .inl (by rw [same] at member; exact member)
  rw [same] at member
  rcases List.mem_cons.mp member with rfl | kept
  · obtain ⟨e, -, alive, rfl, whole⟩ := executing allowed live (.inr ⟨_, rfl⟩)
    exact .inr ⟨e, alive, rfl, whole, by rw [same]⟩
  · exact .inl (List.mem_of_mem_filter kept)

theorem effect_inv (o : Oracle) : (effect w o c).2.Inv p := by
  obtain ⟨clock, started⟩ := effect_frame w o c
  refine ⟨fun row member => ?_, fun {e dir d} own there => ?_, fun at' => ?_⟩
  · rcases effect_rows allowed live o member with old | ⟨e, -, rfl, whole, same⟩
    · obtain ⟨e, rfl, d, there, complete⟩ := inv.rows row old
      refine ⟨e, rfl, d, ?_, complete⟩
      rcases effect_dirs inv allowed live o (p.final e) with same | touched
      · exact same.trans there
      · exact absurd rfl (touched.unreferenced _ old)
    · exact ⟨e, rfl, by rw [Published, same]; exact whole⟩
  · rw [started]
    rcases effect_dirs inv allowed live o dir with same | touched
    · exact inv.dirs own (same ▸ there)
    · exact touched.modTime own there
  · rw [clock]
    exact inv.clock (started ▸ at')

theorem effect_rely (o : Oracle) {other : Proc E}
    (apart : ∀ e, other = .execution e → other ≠ pid) : Rely p other w (effect w o c).2 := by
  obtain ⟨clock, started⟩ := effect_frame w o c
  refine ⟨clock.ge, fun at' => started ▸ at', fun row member => ?_, fun {e dir} same own late => ?_⟩
  · rcases effect_rows allowed live o member with old | ⟨e, alive, rfl, -⟩
    · exact .inl old
    · obtain ⟨t, at', inTime⟩ := World.live_iff.mp alive
      exact .inr ⟨e, t, rfl, started ▸ at', inTime⟩
  · rw [World.Late, clock, started] at late
    rcases effect_dirs inv allowed live o dir with same | touched
    · exact same
    · exact ((touched.owner own).elim (fun own => apart e same (same.trans own.symm)) late).elim

end Allowed

theorem World.Late.mono {ttl : Nat} (late : w.Late ttl e) (clock : w.clock ≤ w'.clock)
    (started : ∀ {t}, w.started e = some t → w'.started e = some t) : w'.Late ttl e := by
  obtain ⟨t, at', passed⟩ := late
  exact ⟨t, started at', passed.trans_le clock⟩

theorem Rely.refl : Rely p pid w w := ⟨le_rfl, id, fun _ => .inl, fun _ _ _ => rfl⟩

theorem Rely.trans {w₁ w₂ : World E} (first : Rely p pid w w₁) (second : Rely p pid w₁ w₂) :
    Rely p pid w w₂ := by
  refine ⟨first.clock.trans second.clock, fun at' => second.started (first.started at'),
    fun row member => ?_, fun same own late => ?_⟩
  · rcases second.rows row member with before | ⟨e, t, path, at', inTime⟩
    · rcases first.rows row before with old | ⟨e, t, path, at', inTime⟩
      · exact .inl old
      · exact .inr ⟨e, t, path, second.started at', inTime⟩
    · exact .inr ⟨e, t, path, at', first.clock.trans inTime⟩
  · rw [second.dirs same own late]
    exact first.dirs same own fun before => late (before.mono second.clock second.started)

/-- Unless the execution is late, its two directories are as described. -/
def Held (p : Publisher Index E) (e : E) (φ : Option Dir → Option Dir → Prop) (w : World E) :
    Prop :=
  ¬ w.Late p.ttl e → φ (w.dirs (p.tmp e)) (w.dirs (p.final e))

variable {φ : Option Dir → Option Dir → Prop}

theorem held_stable : Stable (discipline p) (.execution e) (Held p e φ) := by
  intro w w' relied _ held notLate
  have same := fun {dir} (own : p.Owns e dir) => relied.dirs rfl own notLate
  rw [same (.inl rfl), same (.inr rfl)]
  exact held fun late => notLate (late.mono relied.clock relied.started)

variable {n now : Nat} {refs : List Path}

/-- What a cleanup that has read the rows at some time after `now` can rely on. -/
def Knows (p : Publisher Index E) (n : Nat) (refs : List Path) (now : Nat) (w : World E) : Prop :=
  ∃ w₀, now ≤ w₀.clock ∧ w₀.rows.map Row.artifactPath = refs ∧ Rely p (.cleaner n) w₀ w

theorem knows_stable : Stable (discipline p) (.cleaner n) (Knows p n refs now) := by
  rintro w w' relied - ⟨w₀, clock, read, before⟩
  exact ⟨w₀, clock, read, before.trans relied⟩

theorem removable_stable : Stable (discipline p) (.cleaner n) (Removable p dir) := by
  intro w w' relied _ removable
  refine ⟨fun row member same => ?_, fun own =>
    (removable.late own).mono relied.clock relied.started⟩
  rcases relied.rows row member with before | ⟨e, t, path, at', inTime⟩
  · exact removable.unreferenced row before same
  · obtain ⟨t', at'', late⟩ := removable.late (.inr (same.symm.trans path))
    cases at'.symm.trans (relied.started at'')
    omega

theorem Knows.removable {d : Dir} (knows : Knows p n refs now w) (inv : w.Inv p)
    (there : w.dirs dir = some d) (old : d.modTime < now - p.ttl)
    (missing : dir ∈ refs → ∀ e, dir ≠ p.final e) : Removable p dir w := by
  have late : ∀ {e t}, p.Owns e dir → w.started e = some t → t + p.ttl < now := by
    intro e t own at'
    obtain ⟨t', at'', before⟩ := inv.dirs own there
    cases at'.symm.trans at''
    omega
  obtain ⟨w₀, clock, read, relied⟩ := knows
  refine ⟨fun row member same => ?_, fun {e} own => ?_⟩
  · rcases relied.rows row member with before | ⟨e, t, path, at', inTime⟩
    · obtain ⟨e', rfl, -⟩ := inv.rows row member
      exact missing (same ▸ read ▸ List.mem_map_of_mem before) e' same.symm
    · have := late (.inr (same.symm.trans path)) at'
      omega
  · obtain ⟨t, at', -⟩ := inv.dirs own there
    exact ⟨t, at', (late own at').trans_le (clock.trans relied.clock)⟩

def Built (p : Publisher Index E) (e : E) (r : Except String (Path × String)) (w : World E) :
    Prop :=
  ∀ path hash, r = .ok (path, hash) → ⟨(p.execution e).buildID, path, hash⟩ = p.row e ∧
    Held p e (fun _ final => ∃ d, final = some d ∧ Complete p e d) w

theorem built_error (err : String) (w : World E) : Built p e (.error err) w := by simp [Built]

variable [DecidableEq E]

theorem move_cases {m : Move E} (moved : (system p).move m w = some (w', started)) :
    (w' = { w with clock := w.clock + 1 } ∧ started = []) ∨
    (∃ e, w.started e = none ∧
      w' = { w with started := Function.update w.started e (some w.clock) } ∧
      started = [(.execution e, p.execute (p.execution e))]) ∨
    (∃ n, w' = w ∧ started = [(.cleaner n, do let _ ← cleanup p.ttl; pure ())]) ∨
    (∃ buildID, w' = { w with rows := w.rows.filter (·.buildID ≠ buildID) } ∧ started = []) := by
  cases m with
  | tick => cases moved; exact .inl ⟨rfl, rfl⟩
  | start e =>
    simp only [system] at moved
    split at moved
    · cases moved
    · next new => cases moved; exact .inr (.inl ⟨e, by simpa using new, rfl, rfl⟩)
  | clean n => cases moved; exact .inr (.inr (.inl ⟨n, rfl, rfl⟩))
  | reset buildID => cases moved; exact .inr (.inr (.inr ⟨buildID, rfl, rfl⟩))

theorem started_update {e' : E} {t : Nat} (new : w.started e = none) (at' : w.started e' = some t) :
    Function.update w.started e (some w.clock) e' = some t := by
  rw [Function.update_of_ne (by rintro rfl; simp [new] at at')]
  exact at'

theorem move_inv {m : Move E} (inv : w.Inv p) (moved : (system p).move m w = some (w', started)) :
    w'.Inv p := by
  rcases move_cases moved with ⟨rfl, -⟩ | ⟨e, new, rfl, -⟩ | ⟨n, rfl, -⟩ | ⟨buildID, rfl, -⟩
  · exact ⟨inv.rows, inv.dirs, fun at' => (inv.clock at').trans (Nat.le_succ _)⟩
  · refine ⟨inv.rows, fun own there => ?_, fun {e' t} at' => ?_⟩
    · obtain ⟨t, at', before⟩ := inv.dirs own there
      exact ⟨t, started_update new at', before⟩
    · by_cases same : e' = e
      · simp only [same, Function.update_self, Option.some.injEq] at at'
        exact at'.ge
      · simp only [Function.update_of_ne same] at at'
        exact inv.clock at'
  · exact inv
  · exact ⟨fun row member => inv.rows row (List.mem_of_mem_filter member), inv.dirs, inv.clock⟩

theorem move_rely {m : Move E} (pid : Proc E) (moved : (system p).move m w = some (w', started)) :
    Rely p pid w w' := by
  rcases move_cases moved with ⟨rfl, -⟩ | ⟨e, new, rfl, -⟩ | ⟨n, rfl, -⟩ | ⟨buildID, rfl, -⟩
  · exact ⟨Nat.le_succ _, id, fun _ => .inl, fun _ _ _ => rfl⟩
  · exact ⟨le_rfl, started_update new, fun _ => .inl, fun _ _ _ => rfl⟩
  · exact Rely.refl
  · exact ⟨le_rfl, id, fun _ member => .inl (List.mem_of_mem_filter member), fun _ _ _ => rfl⟩

theorem performed_effect {c : Call} {o : Oracle} {reply : Reply c}
    (performed : (system p).perform pid c w o = some (reply, w')) :
    (∀ e, pid = .execution e → w.live p.ttl e = true) ∧
      reply = (effect w o c).1 ∧ w' = (effect w o c).2 := by
  cases pid with
  | execution e =>
    simp only [system, Option.ite_none_right_eq_some, Option.some.injEq] at performed
    exact ⟨by rintro _ ⟨⟩; exact performed.1, by rw [performed.2], by rw [performed.2]⟩
  | cleaner n =>
    have effects := Option.some.inj performed
    exact ⟨by simp, by rw [effects], by rw [effects]⟩

abbrev Following (p : Publisher Index E) (pid : Proc E) {α : Type} (program : Prog α)
    (post : α → World E → Prop) (w : World E) : Prop :=
  Safe (system p) (discipline p) pid program post w

section Executions

variable {α β : Type} {post : Except String β → World E → Prop} {ψ χ : Dir → Prop} {file : File}

theorem ask_execution {c : Call} {post : Reply c → World E → Prop} (held : Held p e φ w)
    (may : ∀ w, φ (w.dirs (p.tmp e)) (w.dirs (p.final e)) → mayCall p e w c)
    (continues : ∀ w o, φ (w.dirs (p.tmp e)) (w.dirs (p.final e)) →
      post (effect w o c).1 (effect w o c).2) :
    Following p (.execution e) (ask c) post w := by
  refine Safe.ask held_stable held (fun w _ held live => may w (held (World.not_late live))) ?_
  intro w o reply w' _ held performed _
  obtain ⟨live, rfl, rfl⟩ := performed_effect performed
  exact continues w o (held (World.not_late (live e rfl)))

theorem check_safe {text : String} {first : Prog (Except String α)}
    {next : α → Prog (Except String β)} (errs : ∀ err w, post (.error err) w)
    (safe : Following p pid first (fun r w => ∀ a, r = .ok a → Following p pid (next a) post w) w) :
    Following p pid (check text first next) post w := by
  refine Safe.bind (safe.weaken fun r w continues => ?_)
  cases r with
  | error err => exact errs _ w
  | ok a => exact continues a rfl

/-- A call that leaves the directories alone. -/
theorem io_execution (held : Held p e φ w) :
    Following p (.execution e) (ask .io) (fun r w => r = .ok () → Held p e φ w) w :=
  ask_execution held (fun _ _ => trivial) fun _ _ held _ _ => held

theorem checkClosing_safe {text closing : String} {first : Prog (Except String Unit)}
    {next : Prog (Except String β)} (errs : ∀ err w, post (.error err) w)
    (safe : Following p (.execution e) first
      (fun r w => r = .ok () → Following p (.execution e) next post w) w) :
    Following p (.execution e) (checkClosing text closing first next) post w := by
  refine Safe.bind (safe.weaken fun r w continues => ?_)
  cases r with
  | error err =>
    have closed := @io_execution _ _ p w e (fun _ _ => True) _ fun _ => trivial
    exact check_safe errs (closed.weaken fun _ w _ _ _ => errs _ w)
  | ok a => exact continues rfl

/-- The staging directory is there, as described. -/
abbrev Staged (p : Publisher Index E) (e : E) (ψ : Dir → Prop) (w : World E) : Prop :=
  Held p e (fun tmp _ => ∃ d, tmp = some d ∧ ψ d) w

theorem write_execution {data : Bytes} (staged : Staged p e ψ w)
    (writes : ∀ d now, ψ d → χ (d.write file (some data) now)) :
    Following p (.execution e) (ask (.write (p.tmp e) file data))
      (fun r w => r = .ok () → Staged p e χ w) w := by
  refine ask_execution staged (fun _ _ => rfl) ?_
  rintro w o ⟨d, there, holds⟩
  simp only [effect, within, there, Oracle.answer]
  split
  · simp
  · next none =>
      simp only [none, Option.isSome_none, Bool.false_eq_true, if_false]
      exact fun _ _ => ⟨_, World.put_self, writes d _ holds⟩

theorem read_execution {data : Bytes} (staged : Staged p e (fun d => d.files file = some data) w) :
    Following p (.execution e) (ask (.read (p.tmp e) file))
      (fun r w => ∀ a, r = .ok a → a = data ∧
        Staged p e (fun d => d.files file = some data) w) w := by
  refine ask_execution staged (fun _ _ => trivial) ?_
  rintro w o ⟨d, there, holds⟩
  simp only [effect, there, Option.bind_some, holds, Oracle.answer]
  split
  · simp
  · exact fun a read => ⟨(Except.ok.inj read).symm, fun _ => ⟨d, there, holds⟩⟩

def Indexed (p : Publisher Index E) (e : E) (d : Dir) : Prop :=
  d.files .index = some (p.codec.save (p.execution e).index)

theorem writeManifest_execution {documents : Int} {createdAt : Nat}
    (staged : Staged p e (Indexed p e) w) :
    Following p (.execution e) (writeFile (p.tmp e) .manifest (p.codec.marshal
      ⟨(p.execution e).buildID, p.strategy (p.execution e).buildID, documents,
        p.sha.hex (p.codec.save (p.execution e).index), createdAt⟩))
      (fun r w => r = .ok () → Staged p e (Complete p e) w) w := by
  refine check_safe (by simp)
    ((write_execution (χ := Indexed p e) staged fun d now index => ?_).weaken
    fun _ w staged _ ok => ?_)
  · simpa [Indexed, Dir.write] using index
  refine check_safe (by simp) ((write_execution (χ := Complete p e) (staged ok)
    fun d now index => ⟨?_, documents, createdAt, ?_⟩).weaken fun _ w staged _ ok =>
      io_execution (staged ok))
  · simpa [Indexed, Dir.write] using index
  · simp [Dir.write]

theorem rename_execution (staged : Staged p e ψ w) :
    Following p (.execution e) (ask (.rename (p.tmp e) (p.final e)))
      (fun r w => r = .ok () → Held p e (fun _ final => ∃ d, final = some d ∧ ψ d) w) w := by
  refine ask_execution staged (fun _ _ => ⟨rfl, rfl⟩) ?_
  rintro w o ⟨d, there, holds⟩
  simp only [effect, within, there]
  split
  · exact fun _ _ => ⟨d, World.put_self, holds⟩
  · simp

theorem build_safe (staged : Staged p e (fun _ => True) w) :
    Following p (.execution e) (p.build (p.execution e)) (Built p e) w := by
  refine check_safe built_error ((write_execution (χ := fun _ => True) staged
    fun _ _ _ => trivial).weaken fun _ w staged _ ok => ?_)
  refine checkClosing_safe built_error ((write_execution (χ := Indexed p e) (staged ok)
    fun _ _ _ => Function.update_self ..).weaken fun _ w staged ok => ?_)
  refine checkClosing_safe built_error ((io_execution (staged ok)).weaken fun _ w staged ok => ?_)
  iterate 2
    refine check_safe built_error ((io_execution (staged ok)).weaken fun _ w staged _ ok => ?_)
  refine check_safe built_error ((read_execution (staged ok)).weaken fun _ w read data ok => ?_)
  obtain ⟨rfl, staged⟩ := read data ok
  refine Safe.bind (ask_execution staged (fun _ _ => trivial) fun w o staged => ?_)
  refine check_safe built_error ((writeManifest_execution fun _ => staged).weaken
    fun _ w staged _ ok => ?_)
  refine check_safe built_error ((io_execution (staged ok)).weaken fun _ w staged _ ok => ?_)
  refine check_safe built_error ((rename_execution (staged ok)).weaken fun _ w renamed _ ok => ?_)
  rintro _ _ ⟨⟩
  exact ⟨rfl, renamed ok⟩

theorem removeAll_execution {post : Except String Unit → World E → Prop} (any : ∀ r w, post r w) :
    Following p (.execution e) (removeAll (p.tmp e)) post w := by
  have remove : ∀ {w : World E} {c : Call} {post : Reply c → World E → Prop},
      (∀ w, mayCall p e w c) → (∀ r w, post r w) → Following p (.execution e) (ask c) post w :=
    fun may after => @ask_execution _ _ p _ e (fun _ _ => True) _ _ _ (fun _ => trivial)
      (fun w _ => may w) fun _ _ _ => after _ _
  refine Safe.bind (remove (fun _ => rfl) fun _ _ => Safe.bind (remove (fun _ => rfl) fun _ _ =>
    Safe.bind (remove (fun _ => rfl) fun r w => ?_)))
  split
  · exact any _ _
  · split <;> exact any _ _

theorem publish_safe : Following p (.execution e) (p.publish (p.execution e)) (Built p e) w := by
  unfold Publisher.publish
  split
  · exact built_error _ _
  refine check_safe built_error ((@io_execution _ _ p w e (fun _ _ => True) _
    fun _ => trivial).weaken fun _ w held _ ok => ?_)
  refine check_safe built_error (ask_execution (held ok) (fun _ _ => rfl) fun w o _ _ made => ?_)
  refine Safe.bind ((build_safe fun _ => ?_).weaken fun r w built => ?_)
  · simp only [effect] at made ⊢
    split at made
    · next free => simp only [free, if_true]; exact ⟨_, World.put_self, trivial⟩
    · cases made
  · cases r with
    | ok published => exact built
    | error err =>
      exact check_safe built_error (removeAll_execution fun _ w _ _ => built_error _ w)

theorem execute_safe : Following p (.execution e) (p.execute (p.execution e))
    (fun _ _ => True) w := by
  refine Safe.bind (publish_safe.weaken fun r w built => ?_)
  match r, built with
  | .error _, _ => trivial
  | .ok (path, hash), built =>
    obtain ⟨same, held⟩ := built path hash rfl
    exact Safe.bind (ask_execution held (fun w whole => ⟨same, whole⟩) fun _ _ _ => trivial)

end Executions

section Cleanup

theorem ask_cleaner {c : Call} {P : World E → Prop} {post : Reply c → World E → Prop}
    (stable : Stable (discipline p) (.cleaner n) P) (holds : P w) (may : ∀ w, P w → mayClean p w c)
    (continues : ∀ w o, w.Inv p → P w → post (effect w o c).1 (effect w o c).2) :
    Following p (.cleaner n) (ask c) post w := by
  refine Safe.ask stable holds (fun w _ holds => may w holds) ?_
  intro w o reply w' inv holds performed _
  obtain ⟨-, rfl, rfl⟩ := performed_effect performed
  exact continues w o inv holds

theorem remove_cleaner {c : Call} (may : ∀ w, Removable p dir w → mayClean p w c)
    (holds : Knows p n refs now w ∧ Removable p dir w) :
    Following p (.cleaner n) (ask c) (fun _ w => Knows p n refs now w ∧ Removable p dir w) w := by
  refine ask_cleaner (P := fun w => Knows p n refs now w ∧ Removable p dir w)
    (fun w w' relied inv holds => ⟨knows_stable w w' relied inv holds.1,
      removable_stable w w' relied inv holds.2⟩) holds (fun w holds => may w holds.2) ?_
  rintro w o inv ⟨knows, removable⟩
  have allowed : (discipline p).allowed (.cleaner n) c w := may w removable
  have relied : Rely p (.cleaner n) w _ := effect_rely inv allowed (by simp) o (by simp)
  have after := effect_inv inv allowed (by simp) o
  exact ⟨knows_stable w _ relied after knows, removable_stable w _ relied after removable⟩

theorem removeAll_cleaner (holds : Knows p n refs now w ∧ Removable p dir w) :
    Following p (.cleaner n) (removeAll dir) (fun _ => Knows p n refs now) w := by
  refine Safe.bind ((remove_cleaner (fun _ => id) holds).weaken fun _ w holds => ?_)
  refine Safe.bind ((remove_cleaner (fun _ => id) holds).weaken fun _ w holds => ?_)
  refine Safe.bind ((remove_cleaner (fun _ => id) holds).weaken fun r w holds => ?_)
  split
  · exact holds.1
  · split <;> exact holds.1

theorem removeOlder_cleaner {removed : Nat} (knows : Knows p n refs now w)
    (missing : dir ∈ refs → ∀ e, dir ≠ p.final e) :
    Following p (.cleaner n) (removeOlder (now - p.ttl) dir removed)
      (fun _ => Knows p n refs now) w := by
  refine Safe.bind (ask_cleaner knows_stable knows (fun _ _ => trivial) fun w o inv knows => ?_)
  simp only [effect]
  split
  · exact knows
  · next modTime read =>
      split at read
      · cases read
      · next d there =>
          simp only [Oracle.answer] at read
          split at read <;> cases read
          split
          · next old =>
              refine Safe.bind ((removeAll_cleaner
                ⟨knows, knows.removable inv there old missing⟩).weaken fun r w knows => ?_)
              cases r <;> exact knows
          · exact knows

theorem each_cleaner {step : Entry → Nat → Prog Cleaned}
    (safe : ∀ entry removed w, Knows p n refs now w →
      Following p (.cleaner n) (step entry removed) (fun _ => Knows p n refs now) w)
    {entries : List Entry} {removed : Nat} (knows : Knows p n refs now w) :
    Following p (.cleaner n) (each step entries removed) (fun _ => Knows p n refs now) w := by
  induction entries generalizing removed w with
  | nil => exact knows
  | cons entry rest ih =>
    refine Safe.bind ((safe entry removed w knows).weaken fun r w knows => ?_)
    match r with
    | (removed, none) => exact ih knows
    | (_, some _) => exact knows

theorem eachIn_cleaner {step : Entry → Nat → Prog Cleaned}
    (safe : ∀ entry removed w, Knows p n refs now w →
      Following p (.cleaner n) (step entry removed) (fun _ => Knows p n refs now) w)
    {removed : Nat} (knows : Knows p n refs now w) :
    Following p (.cleaner n) (eachIn dir step removed) (fun _ => Knows p n refs now) w := by
  refine Safe.bind (ask_cleaner knows_stable knows (fun _ _ => trivial) fun w o _ knows => ?_)
  split
  · exact each_cleaner safe knows
  · exact knows
  · exact knows

theorem cleanBuild_cleaner (build : Entry) (removed : Nat) (w : World E)
    (knows : Knows p n refs now w) :
    Following p (.cleaner n) (cleanBuild refs (now - p.ttl) build removed)
      (fun _ => Knows p n refs now) w := by
  unfold cleanBuild
  split
  · refine eachIn_cleaner (fun tmp removed w knows => ?_) knows
    unfold cleanTmp
    split
    · exact knows
    · exact removeOlder_cleaner knows fun _ e => by simp [Publisher.final, Execution.finalDir]
  split
  · exact knows
  refine eachIn_cleaner (fun generation removed w knows => ?_) knows
  split
  · exact knows
  refine eachIn_cleaner (fun claim removed w knows => ?_) knows
  unfold cleanClaim
  split
  · exact knows
  split
  · exact knows
  · next missing => exact removeOlder_cleaner knows fun known => absurd known missing

theorem cleanup_safe : Following p (.cleaner n) (cleanup p.ttl) (fun _ _ => True) w := by
  refine Safe.bind (ask_cleaner (P := fun _ => True) (fun _ _ _ _ => id) trivial
    (fun _ _ => trivial) fun w o _ _ => ?_)
  refine Safe.bind (ask_cleaner (P := fun w' => w.clock ≤ w'.clock)
    (fun _ _ relied _ before => before.trans relied.clock) le_rfl (fun _ _ => trivial) ?_)
  intro w' o _ clock
  simp only [effect, Oracle.answer]
  split
  · trivial
  · next refs read =>
      split at read <;> cases read
      have knows : Knows p n (w'.rows.map Row.artifactPath) w.clock w' :=
        ⟨w', clock, rfl, Rely.refl⟩
      refine Safe.bind (ask_cleaner knows_stable knows (fun _ _ => trivial) fun w o _ knows => ?_)
      split
      · trivial
      · trivial
      · exact (each_cleaner cleanBuild_cleaner knows).weaken fun _ _ _ => trivial

end Cleanup

theorem discipline_sound (p : Publisher Index E) : (discipline p).Sound (system p) where
  rely_trans := Rely.trans
  rely_refl := Rely.refl
  perform_inv inv allowed performed := by
    obtain ⟨live, -, rfl⟩ := performed_effect performed
    exact effect_inv inv allowed live _
  perform_rely inv allowed performed apart := by
    obtain ⟨live, -, rfl⟩ := performed_effect performed
    exact effect_rely inv allowed live _ fun _ _ => apart
  move_inv := move_inv
  move_rely _ := move_rely _
  started_safe := by
    intro m w w' started pid program _ _ moved member
    rcases move_cases moved with ⟨-, rfl⟩ | ⟨e, -, -, rfl⟩ | ⟨n, -, rfl⟩ | ⟨buildID, -, rfl⟩
    · cases member
    · cases List.mem_singleton.mp member
      exact execute_safe
    · cases List.mem_singleton.mp member
      exact Safe.bind (cleanup_safe.weaken fun _ _ _ => trivial)
    · cases member

/-- In every state that executions and cleanups reach side by side, with any failed calls, crashes
and retries, the artifact of a finalized build is loaded as the index that an execution of this
build has saved. -/
theorem finalized_artifact_loads {s : State Api (World E) (Proc E)} (run : (system p).Run initial s)
    {row : Row} (member : row ∈ s.world.rows) :
    ∃ e, (p.execution e).buildID = row.buildID ∧
      p.loadIndexVerified s.world row.artifactPath row.buildID row.artifactHash
        (some (p.strategy row.buildID)) = p.codec.load (p.codec.save (p.execution e).index) := by
  have start : (discipline p).Holds (system p) initial :=
    ⟨⟨by simp [initial], by simp [initial], by simp [initial]⟩, by simp [initial]⟩
  obtain ⟨e, rfl, d, there, complete⟩ := ((discipline_sound p).run start run).inv.rows row member
  exact ⟨e, rfl, complete.load there⟩

open Wire.Code in
def manifestCode : Wire.Code Manifest :=
  via (pair int (pair string (pair int (pair string nat))))
    (fun m => (m.retrievalBuildID, m.strategy, m.documentCount, m.artifactHash, m.createdAt))
    (fun (id, strategy, count, hash, created) => ⟨id, strategy, count, hash, created⟩) fun _ => rfl

theorem manifestCode_faithful (m : Manifest) :
    (match manifestCode.read (manifestCode.put m) with
      | some m => Except.ok m
      | none => .error "unexpected end of JSON input") = .ok m := by
  rw [manifestCode.read_put]

/-- An index is its own bytes. -/
def wireCodec : Codec Bytes where
  save := id
  load := .ok
  totalDocs _ := 1
  marshal := manifestCode.put
  unmarshal data := match manifestCode.read data with
    | some m => .ok m
    | none => .error "unexpected end of JSON input"
  faithful := manifestCode_faithful

def claimOf : Bool → Execution Bytes
  | false => ⟨1, 1, "token", [8, 9], "x"⟩
  | true => ⟨2, 1, "second", [7], "y"⟩

theorem claimOf_apart {one two : Bool} : ((claimOf one).tmpDir = (claimOf two).tmpDir → one = two) ∧
    ((claimOf one).finalDir sizeDigest = (claimOf two).finalDir sizeDigest → one = two) := by
  cases one <;> cases two <;> decide +kernel

def twoPublisher : Publisher Bytes Bool where
  sha := sizeDigest
  codec := wireCodec
  baseDir := "/index"
  strategy _ := "BM25"
  ttl := 24
  execution := claimOf
  tmpDir_apart := claimOf_apart.1
  finalDir_apart := claimOf_apart.2

/-- The first execution crashes before it finalizes, the second one ends, and a cleanup behind the
time granted removes the directory that was left behind. -/
theorem finalized_artifact_loads_two :
    ∃ s s' row, (system twoPublisher).Run initial s ∧ (system twoPublisher).Run s s' ∧
      (s.world.dirs (twoPublisher.final false)).isSome ∧
      (s'.world.dirs (twoPublisher.final false)).isNone ∧ row ∈ s'.world.rows ∧
      twoPublisher.loadIndexVerified s'.world row.artifactPath row.buildID row.artifactHash
        (some "BM25") = .ok [7] := by
  let fine : Oracle := ⟨none, none, false, .missing⟩
  let lists (names : List String) : Oracle :=
    ⟨none, none, false, .entries (names.map fun name => ⟨name, true, false⟩)⟩
  let made : List (Action (Proc Bool) Oracle (Move Bool)) :=
    .move (.start false) :: List.replicate 14 (.perform (.execution false) fine) ++
    .stop (.execution false) ::
    .move (.start true) :: List.replicate 15 (.perform (.execution true) fine) ++
    List.replicate 25 (.move .tick)
  let cleaned : List (Action (Proc Bool) Oracle (Move Bool)) :=
    .move (.clean 0) :: ([fine, fine, lists ["1", "2"],
      lists ["gen-1"], lists [(claimOf false).claimKey sizeDigest], fine, fine, fine, fine,
      lists ["gen-1"], lists [(claimOf true).claimKey sizeDigest]].map (.perform (.cleaner 0)))
  have ran : ((system twoPublisher).exec initial made).bind (fun s =>
      ((system twoPublisher).exec s cleaned).map fun s' =>
        ((s.world.dirs (twoPublisher.final false)).isSome,
          (s'.world.dirs (twoPublisher.final false)).isNone, s'.world.rows)) =
        some (true, true, [twoPublisher.row true]) := by decide +kernel
  obtain ⟨s, first, more⟩ := Option.bind_eq_some_iff.mp ran
  obtain ⟨s', second, same⟩ := Option.map_eq_some_iff.mp more
  simp only [Prod.mk.injEq] at same
  obtain ⟨there, removed, rows⟩ := same
  have member : twoPublisher.row true ∈ s'.world.rows := by simp [rows]
  have run := Machine.exec_run second
  obtain ⟨e, build, loaded⟩ :=
    finalized_artifact_loads ((Machine.exec_run first).trans run) member
  cases e with
  | false => exact absurd build (by decide)
  | true => exact ⟨s, s', _, Machine.exec_run first, run, there, removed, member, loaded⟩

end Artifacts

end RepoLens
