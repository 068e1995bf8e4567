import RepoLens.JobSteps

/-!
One diagnosis seen as a whole: its run, its job, its attempts and its reports.
-/

namespace RepoLens

open Relational Transaction

structure RunView where
  job : Option AnalysisJob
  run : Option DiagnosisRun
  attempts : List DiagnosisAttempt
  reports : List Report

def Database.view (db : Database) (runID : String) : RunView where
  job := db.jobs.select fun job => job.For .runDiagnosis runID
  run := db.runs.select fun run => run.id = runID
  attempts := db.attempts.selectAll fun attempt => attempt.diagnosisRunID = runID
  reports := db.reports.selectAll fun report => report.diagnosisRunID = runID

variable {job : AnalysisJob} {run : DiagnosisRun}

namespace RunView
variable {p : AnalysisJob → Prop}

def mapJob (p : AnalysisJob → Prop) [DecidablePred p] (f : AnalysisJob → AnalysisJob)
    (v : RunView) : RunView :=
  { v with job := v.job.map fun job => if p job then f job else job }

def mapRun (p : DiagnosisRun → Prop) [DecidablePred p] (f : DiagnosisRun → DiagnosisRun)
    (v : RunView) : RunView :=
  { v with run := v.run.map fun run => if p run then f run else run }

def mapAttempts (p : DiagnosisAttempt → Prop) [DecidablePred p]
    (f : DiagnosisAttempt → DiagnosisAttempt) (v : RunView) : RunView :=
  { v with attempts := v.attempts.map fun attempt => if p attempt then f attempt else attempt }

variable {v : RunView}

theorem mapJob_miss [DecidablePred p] {f : AnalysisJob → AnalysisJob}
    (miss : ∀ job, v.job = some job → ¬p job) : v.mapJob p f = v := by
  cases found : v.job with
  | none => rw [mapJob, found, Option.map_none, ← found]
  | some job => rw [mapJob, found, Option.map_some, if_neg (miss job found), ← found]

theorem mapJob_hit [DecidablePred p] {f : AnalysisJob → AnalysisJob} (job_eq : v.job = some job)
    (hit : p job) :
    v.mapJob p f = { v with job := some (f job) } := by
  rw [mapJob, job_eq, Option.map_some, if_pos hit]

theorem mapRun_miss {p : DiagnosisRun → Prop} [DecidablePred p] {f : DiagnosisRun → DiagnosisRun}
    (miss : ∀ run, v.run = some run → ¬p run) : v.mapRun p f = v := by
  cases found : v.run with
  | none => rw [mapRun, found, Option.map_none, ← found]
  | some run => rw [mapRun, found, Option.map_some, if_neg (miss run found), ← found]

theorem mapRun_hit {p : DiagnosisRun → Prop} [DecidablePred p] {f : DiagnosisRun → DiagnosisRun}
    (run_eq : v.run = some run) (hit : p run) :
    v.mapRun p f = { v with run := some (f run) } := by
  rw [mapRun, run_eq, Option.map_some, if_pos hit]

theorem mapAttempts_miss {p : DiagnosisAttempt → Prop} [DecidablePred p]
    {f : DiagnosisAttempt → DiagnosisAttempt} (miss : ∀ row ∈ v.attempts, ¬p row) :
    v.mapAttempts p f = v := by
  have same : (v.attempts.map fun row => if p row then f row else row) = v.attempts :=
    (List.map_congr_left fun row member => by rw [if_neg (miss row member), id_eq]).trans
      (List.map_id _)
  rw [mapAttempts, same]

end RunView

section Rows

variable {db : Database} {runID : String}

theorem view_job :
    (db.view runID).job = some job ↔ job ∈ db.jobs.rows ∧ job.For .runDiagnosis runID :=
  Table.select_iff_of_unique fun _ leftMember _ rightMember leftFor rightFor =>
    db.jobs.eq_of_index leftMember rightMember (by
      simp only [AnalysisJob.resource, leftFor.1, leftFor.2, rightFor.1, rightFor.2])

theorem view_run :
    (db.view runID).run = some run ↔ run ∈ db.runs.rows ∧ run.id = runID :=
  Table.select_iff_of_unique fun _ leftMember _ rightMember leftID rightID =>
    db.runs.eq_of_key leftMember rightMember (leftID.trans rightID.symm)

theorem view_attempt {attempt : DiagnosisAttempt} :
    attempt ∈ (db.view runID).attempts ↔
      attempt ∈ db.attempts.rows ∧ attempt.diagnosisRunID = runID :=
  Table.mem_selectAll

theorem view_report {report : Report} :
    report ∈ (db.view runID).reports ↔
      report ∈ db.reports.rows ∧ report.diagnosisRunID = runID :=
  Table.mem_selectAll

theorem view_jobs_update [DecidablePred p] {f : AnalysisJob → AnalysisJob}
    {keeps : Table.Keeps AnalysisJob.id AnalysisJob.resource f} :
    (Place.jobs.set ((Place.jobs.get db).update p f keeps) db).view runID =
      (db.view runID).mapJob p f := by
  have rows : (db.jobs.update p f keeps).select (fun job => job.For .runDiagnosis runID) =
      (db.jobs.select fun job => job.For .runDiagnosis runID).map
        fun job => if p job then f job else job := by
    refine Table.select_update fun job => ?_
    have type := congrArg Prod.fst (keeps job).2
    have resource := congrArg Prod.snd (keeps job).2
    simp only [AnalysisJob.resource] at type resource
    rw [AnalysisJob.For, AnalysisJob.For, type, resource]
  simp only [Database.view, RunView.mapJob, Place.jobs_get, Place.jobs_set_jobs,
    Place.jobs_set_runs, Place.jobs_set_attempts, Place.jobs_set_reports, rows]

theorem view_runs_update {p : DiagnosisRun → Prop} [DecidablePred p]
    {f : DiagnosisRun → DiagnosisRun}
    {keeps : Table.Keeps DiagnosisRun.id DiagnosisRun.idempotency f} :
    (Place.runs.set ((Place.runs.get db).update p f keeps) db).view runID =
      (db.view runID).mapRun p f := by
  have rows : (db.runs.update p f keeps).select (fun run => run.id = runID) =
      (db.runs.select fun run => run.id = runID).map fun run => if p run then f run else run :=
    Table.select_update fun run => by rw [(keeps run).1]
  simp only [Database.view, RunView.mapRun, Place.runs_get, Place.runs_set_jobs,
    Place.runs_set_runs, Place.runs_set_attempts, Place.runs_set_reports, rows]

theorem view_attempts_update {p : DiagnosisAttempt → Prop} [DecidablePred p]
    {f : DiagnosisAttempt → DiagnosisAttempt}
    {keeps : Table.Keeps DiagnosisAttempt.id DiagnosisAttempt.number f} :
    (Place.attempts.set ((Place.attempts.get db).update p f keeps) db).view runID =
      (db.view runID).mapAttempts p f := by
  have rows : (db.attempts.update p f keeps).selectAll
        (fun attempt => attempt.diagnosisRunID = runID) =
      (db.attempts.selectAll fun attempt => attempt.diagnosisRunID = runID).map
        fun attempt => if p attempt then f attempt else attempt := by
    refine Table.selectAll_update fun attempt => ?_
    have keepsRun : (f attempt).diagnosisRunID = attempt.diagnosisRunID :=
      congrArg Prod.fst (keeps attempt).2
    rw [keepsRun]
  simp only [Database.view, RunView.mapAttempts, Place.attempts_get, Place.attempts_set_jobs,
    Place.attempts_set_runs, Place.attempts_set_attempts, Place.attempts_set_reports, rows]

end Rows

def Focus (runID : String) (change : RunView → RunView) (db db' : Database) : Prop :=
  db'.view runID = change (db.view runID) ∧ ∀ other, other ≠ runID → db'.view other = db.view other

def SameViews (db db' : Database) : Prop := ∀ runID, db'.view runID = db.view runID

instance : Std.Refl SameViews := ⟨fun _ _ => rfl⟩

instance : IsTrans Database SameViews :=
  ⟨fun _ _ _ first second runID => (second runID).trans (first runID)⟩

namespace Focus

variable {runID : String} {db db₁ db' : Database} {f g : RunView → RunView}

theorem trans (first : Focus runID f db db₁) (second : Focus runID g db₁ db') :
    Focus runID (g ∘ f) db db' :=
  ⟨by rw [second.1, first.1, Function.comp_apply],
    fun other apart => (second.2 other apart).trans (first.2 other apart)⟩

theorem same (same : SameViews db db') : Focus runID id db db' :=
  ⟨same runID, fun other _ => same other⟩

theorem then_same (first : Focus runID f db db₁) (rest : SameViews db₁ db') :
    Focus runID f db db' :=
  ⟨(rest runID).trans first.1, fun other apart => (rest other).trans (first.2 other apart)⟩

theorem attempts_update {p : DiagnosisAttempt → Prop} [DecidablePred p]
    {f : DiagnosisAttempt → DiagnosisAttempt}
    {keeps : Table.Keeps DiagnosisAttempt.id DiagnosisAttempt.number f}
    (own : ∀ attempt ∈ db.attempts.rows, p attempt → attempt.diagnosisRunID = runID) :
    Focus runID (RunView.mapAttempts p f) db
      (Place.attempts.set ((Place.attempts.get db).update p f keeps) db) := by
  refine ⟨view_attempts_update, fun other apart => view_attempts_update.trans ?_⟩
  refine RunView.mapAttempts_miss fun row member hit => apart ?_
  obtain ⟨present, owner⟩ := view_attempt.mp member
  rw [← owner, own row present hit]

theorem runs_update {p : DiagnosisRun → Prop} [DecidablePred p] {f : DiagnosisRun → DiagnosisRun}
    {keeps : Table.Keeps DiagnosisRun.id DiagnosisRun.idempotency f}
    (own : ∀ run, p run → run.id = runID) :
    Focus runID (RunView.mapRun p f) db
      (Place.runs.set ((Place.runs.get db).update p f keeps) db) := by
  refine ⟨view_runs_update, fun other apart => view_runs_update.trans ?_⟩
  refine RunView.mapRun_miss fun run found hit => apart ?_
  rw [← (view_run.mp found).2, own run hit]

theorem jobs_update [DecidablePred p] {f : AnalysisJob → AnalysisJob}
    {keeps : Table.Keeps AnalysisJob.id AnalysisJob.resource f}
    (own : ∀ job ∈ db.jobs.rows, p job → job.For .runDiagnosis runID) :
    Focus runID (RunView.mapJob p f) db
      (Place.jobs.set ((Place.jobs.get db).update p f keeps) db) := by
  refine ⟨view_jobs_update, fun other apart => view_jobs_update.trans ?_⟩
  refine RunView.mapJob_miss fun job found hit => apart ?_
  obtain ⟨member, owner⟩ := view_job.mp found
  rw [← owner.2, (own job member hit).2]

theorem job_update [DecidablePred p] {f : AnalysisJob → AnalysisJob}
    {keeps : Table.Keeps AnalysisJob.id AnalysisJob.resource f}
    (present : (db.view runID).job = some job)
    (own : ∀ row ∈ db.jobs.rows, p row → row.id = job.id) :
    Focus runID (RunView.mapJob p f) db
      (Place.jobs.set ((Place.jobs.get db).update p f keeps) db) := by
  obtain ⟨member, owner⟩ := view_job.mp present
  refine jobs_update fun row rowMember hit => ?_
  rw [db.jobs.eq_of_key rowMember member (own row rowMember hit)]
  exact owner

theorem attempts_insert {attempt : DiagnosisAttempt}
    {table : Table DiagnosisAttempt.id DiagnosisAttempt.number}
    (inserted : (Place.attempts.get db).insert attempt = some table)
    (own : attempt.diagnosisRunID = runID) :
    Focus runID (fun v => { v with attempts := v.attempts ++ [attempt] }) db
      (Place.attempts.set table db) := by
  have rows : ∀ id, table.selectAll (fun attempt => attempt.diagnosisRunID = id) =
      (db.attempts.selectAll fun attempt => attempt.diagnosisRunID = id) ++
        (if attempt.diagnosisRunID = id then [attempt] else []) :=
    fun id => Table.selectAll_insert inserted
  constructor
  · simp only [Database.view, Place.attempts_set_jobs, Place.attempts_set_runs,
      Place.attempts_set_attempts, Place.attempts_set_reports, rows, own, ↓reduceIte]
  · intro other apart
    simp only [Database.view, Place.attempts_set_jobs, Place.attempts_set_runs,
      Place.attempts_set_attempts, Place.attempts_set_reports, rows, own, Ne.symm apart,
      ↓reduceIte, List.append_nil]

theorem reports_insert {report : Report} {table : Table Report.id Report.id}
    (inserted : (Place.reports.get db).insert report = some table)
    (own : report.diagnosisRunID = runID) :
    Focus runID (fun v => { v with reports := v.reports ++ [report] }) db
      (Place.reports.set table db) := by
  have rows : ∀ id, table.selectAll (fun report => report.diagnosisRunID = id) =
      (db.reports.selectAll fun report => report.diagnosisRunID = id) ++
        (if report.diagnosisRunID = id then [report] else []) :=
    fun id => Table.selectAll_insert inserted
  constructor
  · simp only [Database.view, Place.reports_set_jobs, Place.reports_set_runs,
      Place.reports_set_attempts, Place.reports_set_reports, rows, own, ↓reduceIte]
  · intro other apart
    simp only [Database.view, Place.reports_set_jobs, Place.reports_set_runs,
      Place.reports_set_attempts, Place.reports_set_reports, rows, own, Ne.symm apart,
      ↓reduceIte, List.append_nil]

theorem runs_insert {table : Table DiagnosisRun.id DiagnosisRun.idempotency}
    (inserted : (Place.runs.get db).insert run = some table) :
    (db.view run.id).run = none ∧
      Focus run.id (fun v => { v with run := some run }) db (Place.runs.set table db) := by
  have missing : (db.view run.id).run = none := by
    refine Table.select_eq_none.mpr fun row member same => (Table.insert_some inserted).2.1 ?_
    exact same ▸ List.mem_map_of_mem member
  have rows : ∀ id, table.select (fun row => row.id = id) =
      (db.runs.select fun row => row.id = id).or (if run.id = id then some run else none) :=
    fun id => Table.select_insert inserted
  refine ⟨missing, ?_, fun other apart => ?_⟩
  · have first : db.runs.select (fun row => row.id = run.id) = none := missing
    simp only [Database.view, Place.runs_set_jobs, Place.runs_set_runs, Place.runs_set_attempts,
      Place.runs_set_reports, rows, first, ↓reduceIte, Option.none_or]
  · simp only [Database.view, Place.runs_set_jobs, Place.runs_set_runs, Place.runs_set_attempts,
      Place.runs_set_reports, rows, Ne.symm apart, ↓reduceIte, Option.or_none]

theorem jobs_insert {table : Table AnalysisJob.id AnalysisJob.resource}
    (inserted : (Place.jobs.get db).insert job = some table) (own : job.For .runDiagnosis runID) :
    (db.view runID).job = none ∧
      Focus runID (fun v => { v with job := some job }) db (Place.jobs.set table db) := by
  have missing : (db.view runID).job = none := by
    refine Table.select_eq_none.mpr fun row member same => (Table.insert_some inserted).2.2 ?_
    have resource : row.resource = job.resource := by
      simp only [AnalysisJob.resource, same.1, same.2, own.1, own.2]
    exact resource ▸ List.mem_map_of_mem member
  have rows : ∀ id, table.select (fun row => row.For .runDiagnosis id) =
      (db.jobs.select fun row => row.For .runDiagnosis id).or
        (if job.For .runDiagnosis id then some job else none) :=
    fun id => Table.select_insert inserted
  refine ⟨missing, ?_, fun other apart => ?_⟩
  · have first : db.jobs.select (fun row => row.For .runDiagnosis runID) = none := missing
    simp only [Database.view, Place.jobs_set_jobs, Place.jobs_set_runs, Place.jobs_set_attempts,
      Place.jobs_set_reports, rows, first, own, ↓reduceIte, Option.none_or]
  · have elsewhere : ¬job.For .runDiagnosis other :=
      fun there => apart (there.2.symm.trans own.2)
    simp only [Database.view, Place.jobs_set_jobs, Place.jobs_set_runs, Place.jobs_set_attempts,
      Place.jobs_set_reports, rows, elsewhere, ↓reduceIte, Option.or_none]

end Focus

theorem SameViews.jobs_insert {db : Database} {table : Table AnalysisJob.id AnalysisJob.resource}
    (inserted : (Place.jobs.get db).insert job = some table) (other : job.jobType ≠ .runDiagnosis) :
    SameViews db (Place.jobs.set table db) := by
  intro runID
  have rows : table.select (fun row => row.For .runDiagnosis runID) =
      (db.jobs.select fun row => row.For .runDiagnosis runID).or
        (if job.For .runDiagnosis runID then some job else none) :=
    Table.select_insert inserted
  have elsewhere : ¬job.For .runDiagnosis runID := fun there => other there.1
  simp only [Database.view, Place.jobs_set_jobs, Place.jobs_set_runs, Place.jobs_set_attempts,
    Place.jobs_set_reports, rows, elsewhere, ↓reduceIte, Option.or_none]

theorem SameViews.jobs_update {db : Database} [DecidablePred p] {f : AnalysisJob → AnalysisJob}
    {keeps : Table.Keeps AnalysisJob.id AnalysisJob.resource f}
    (other : ∀ job ∈ db.jobs.rows, p job → job.jobType ≠ .runDiagnosis) :
    SameViews db (Place.jobs.set ((Place.jobs.get db).update p f keeps) db) := by
  intro runID
  refine view_jobs_update.trans (RunView.mapJob_miss fun job found hit => ?_)
  obtain ⟨member, owner⟩ := view_job.mp found
  exact other job member hit owner.1

end RepoLens
