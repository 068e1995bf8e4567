import RepoLens.WorkerSafety

/-!
Every run of the system keeps to the discipline.
-/

namespace RepoLens

open Relational Transaction Interleaving

variable {handlers : Handlers}

theorem World.Moved.claimed_fresh {workerID : String} {batchSize leaseDuration : Nat}
    {pick : AnalysisJob → Bool} {tokens : Nat → String} {now : Time} {w : World}
    {claimedJobs : List AnalysisJob} {db : Database} {job : AnalysisJob}
    (ran : claimJobs workerID batchSize leaseDuration pick tokens now w.db = .ok (claimedJobs, db))
    (fresh : w.Fresh claimedJobs) (inv : w.Inv) (member : job ∈ claimedJobs) :
    job.executionStarted = false ∧
      World.Claimed { w with db, issued := claimedJobs.map AnalysisJob.claim ++ w.issued } job := by
  have issued : job.claim ∈ claimedJobs.map AnalysisJob.claim := List.mem_map_of_mem member
  have unissued : job.claim ∉ w.issued := fun old => fresh.old old issued
  obtain ⟨candidates, claimable, rfl, rfl⟩ := claimJobs_ok ran
  obtain ⟨candidate, chosen, rfl⟩ := List.mem_map.mp member
  have present : candidate.claimed workerID (tokens candidate.id) (now + leaseDuration) ∈
      (Place.jobs.set (w.db.jobs.update (fun job => job.id ∈ candidates.map AnalysisJob.id)
        (fun job => job.claimed workerID (tokens job.id) (now + leaseDuration))
        fun _ => ⟨rfl, rfl⟩) w.db).jobs.rows :=
    mem_jobs_set.mpr (Table.mem_update.mpr ⟨candidate, (claimable candidate chosen).1,
      if_pos (List.mem_map_of_mem chosen)⟩)
  refine ⟨rfl, List.mem_append_left _ issued, fun row there held => .inl ?_,
    fun row there held started => ?_, fun event mine => ?_⟩
  · rw [AnalysisJob.HeldBy.same there present held ⟨rfl, rfl, rfl, rfl⟩]
    exact .refl _
  · rw [AnalysisJob.HeldBy.same there present held ⟨rfl, rfl, rfl, rfl⟩] at started
    cases started
  · obtain ⟨logged, same⟩ := World.mem_own.mp mine
    exact absurd (same ▸ inv.logged event logged) unissued

theorem discipline_sound : (discipline handlers).Sound (system handlers) where
  rely_trans := World.Rely.trans
  rely_refl := World.Rely.refl
  perform_inv inv allowed performed := (allowed.follows inv performed).inv inv allowed.1
  perform_rely inv allowed performed apart := (allowed.follows inv performed).rely inv apart
  move_inv inv moved := (World.move_moved moved).inv inv
  move_rely inv moved := (World.move_moved moved).rely inv _
  started_safe := by
    intro m w w' started pid program inv _ moved member
    cases World.move_moved moved with
    | @claimed _ _ _ _ _ _ answered _ _ _ ran fresh =>
      cases answered with
      | false => cases member
      | true =>
        obtain ⟨job, chosen, same⟩ := List.mem_map.mp member
        cases same
        obtain ⟨unstarted, claimed⟩ := World.Moved.claimed_fresh ran fresh inv chosen
        exact startAndDispatchClaim_obeys unstarted claimed
    | requested | contextEnded | seen | requeued => cases member

theorem Database.empty_sound : Database.empty.Sound := by
  intro runID
  have absent : (Database.empty.view runID).job = none := rfl
  have none : ∀ {job}, (Database.empty.view runID).job ≠ some job := fun found =>
    Option.some_ne_none _ (found.symm.trans absent)
  have attempts : (Database.empty.view runID).attempts = [] := rfl
  have reports : (Database.empty.view runID).reports = [] := rfl
  refine ⟨⟨rfl, ?_, ?_⟩, ⟨fun _ => ⟨attempts, reports⟩, ?_, ?_⟩, ⟨?_, ?_⟩, ?_⟩
  · exact fun found => absurd found none
  · exact fun found => absurd found none
  · exact fun found => absurd found none
  · exact fun found => absurd found none
  · rw [reports]
    exact fun report member => absurd member List.not_mem_nil
  · exact fun found => absurd found none
  · rw [RunView.Completed, attempts]
    exact fun attempt member => absurd member List.not_mem_nil

theorem World.empty_inv : World.empty.Inv := by
  have jobs : World.empty.db.jobs.rows = [] := rfl
  refine ⟨?_, ?_, fun _ => .inl rfl, ?_, Database.empty_sound, ?_⟩
  · rw [jobs]
    exact fun job member => absurd member List.not_mem_nil
  · exact fun event member => absurd member List.not_mem_nil
  · rw [jobs]
    exact fun claim _ job member => absurd member List.not_mem_nil
  · exact fun entry member => absurd member List.not_mem_nil

theorem initial_holds : (discipline handlers).Holds (system handlers) initial :=
  ⟨World.empty_inv, fun _ _ live => nomatch live⟩

variable {s s' : SystemState} {a : Action Claim Oracle Move}

theorem Reachable.holds (reachable : Reachable handlers s) :
    (discipline handlers).Holds (system handlers) s :=
  discipline_sound.run initial_holds reachable

theorem Reachable.step_cases (reachable : Reachable handlers s)
    (stepped : (system handlers).step s a = some s') :
    (∃ claim oracle c next reply, a = .perform claim oracle ∧
      s.procs claim = some (.call c next) ∧ Call.Allowed handlers.diagnosis claim c s.world ∧
      World.perform claim c s.world oracle = some (reply, s'.world)) ∨
    s'.world = s.world ∨
    ∃ m started, a = .move m ∧ s.world.Moved handlers m s'.world started := by
  rcases Machine.step_cases stepped with
    ⟨claim, oracle, c, next, reply, rfl, live, performed, -⟩ | ⟨claim, -, world, -⟩ |
    ⟨m, started, rfl, moved, -⟩
  · have there := reachable.holds
    obtain ⟨allowed, -⟩ := there.safe claim _ live s.world discipline_sound.rely_refl there.inv
    exact .inl ⟨claim, oracle, c, next, reply, rfl, live, allowed, performed⟩
  · exact .inr (.inl world)
  · exact .inr (.inr ⟨m, started, rfl, World.move_moved moved⟩)

theorem World.Moved.of_step {m : Move} (stepped : (system handlers).step s (.move m) = some s') :
    ∃ started, s.world.Moved handlers m s'.world started := by
  rcases Machine.step_cases stepped with ⟨_, _, _, _, _, other, -⟩ | ⟨_, other, -⟩ |
    ⟨m', started, same, moved, -⟩
  · cases other
  · rcases other with other | other
  · cases same
    exact ⟨started, World.move_moved moved⟩

theorem Reachable.step_view {rules : RunRules} (reachable : Reachable handlers s)
    (stepped : (system handlers).step s a = some s')
    (permits : ∀ claim, (s.world.runRules claim).Permits rules)
    (excused : ∀ claim, s.world.Excuses rules claim)
    (aborting : ∀ claim oracle call next, a = .perform claim oracle →
      s.procs claim = some (.call (.store call) next) → call.Aborting rules s.world.db)
    (granted : ∀ request outside, a = .move (.request request outside) →
      request.Granted rules s.world.db outside) :
    ViewStep rules s.world.db s'.world.db := by
  have inv := reachable.holds.inv
  rcases reachable.step_cases stepped with
    ⟨claim, oracle, c, next, reply, rfl, live, allowed, performed⟩ | same | ⟨m, started, rfl, moved⟩
  · by_cases store : ∃ call, c = .store call
    · obtain ⟨call, rfl⟩ := store
      exact (World.perform_store performed).view (permits claim) (excused claim) inv
        (aborting claim oracle call next rfl live) allowed.2.1
    · rw [World.perform_other (fun call same => store ⟨call, same⟩) performed]
      exact fun _ => .inl rfl
  · rw [same]
    exact fun _ => .inl rfl
  · exact moved.view inv fun request outside same => granted request outside (same ▸ rfl)

theorem Reachable.step_free (reachable : Reachable handlers s)
    (stepped : (system handlers).step s a = some s') :
    ViewStep .free s.world.db s'.world.db :=
  reachable.step_view stepped
    (fun _ => ⟨fun _ _ => trivial, fun _ _ => trivial, fun _ _ => trivial⟩)
    (fun _ _ _ _ _ _ => trivial)
    (fun _ _ call _ _ _ => call.aborting (fun _ => trivial) (fun _ => trivial) s.world.db)
    (fun request outside _ =>
      request.granted (fun _ => trivial) (fun _ => trivial) (fun _ => trivial) (fun _ => trivial)
        s.world.db outside)

theorem Call.Allowed.dispatches {h : DiagnosisHandler} {claim : Claim} {c : Call} {w w' : World}
    {oracle : Oracle} {reply : c.Reply} (allowed : c.Allowed h claim w)
    (performed : World.perform claim c w oracle = some (reply, w')) :
    ∃ events, w'.log = events ++ w.log ∧
      ∀ execution, .dispatched execution ∈ events → w.Authorized claim execution := by
  by_cases store : ∃ call, c = .store call
  · obtain ⟨call, rfl⟩ := store
    refine ⟨_, (World.perform_store performed).log, fun execution recorded => ?_⟩
    rcases StoreCall.events_cases recorded with ⟨_, _, _, _, same⟩ | ⟨_, same | same⟩ <;> cases same
  · rw [World.perform_other (fun call same => store ⟨call, same⟩) performed]
    refine ⟨_, rfl, fun execution recorded => ?_⟩
    cases c with
    | store call => exact absurd ⟨call, rfl⟩ store
    | dispatch sent =>
      cases List.mem_singleton.mp recorded
      exact allowed.2
    | receive | invokeHandler | dropPolicy | recordFinalizationError =>
      cases List.mem_singleton.mp recorded
    | _ => cases recorded

theorem Reachable.dispatches (reachable : Reachable handlers s) (run : (system handlers).Run s s') :
    ∃ events, s'.world.log = events ++ s.world.log ∧
      ∀ execution, .dispatched execution ∈ events →
        ∃ t claim, (system handlers).Run s t ∧ t.world.Authorized claim execution := by
  induction run with
  | start => exact ⟨[], rfl, fun _ member => absurd member List.not_mem_nil⟩
  | @step s₁ s₂ a first _ stepped ih =>
    obtain ⟨events, log, earlier⟩ := ih
    have there : Reachable handlers s₁ := RunWhere.trans reachable first
    rcases there.step_cases stepped with
      ⟨claim, oracle, c, next, reply, -, -, allowed, performed⟩ | same | ⟨m, started, -, moved⟩
    · obtain ⟨new, newLog, authorized⟩ := allowed.dispatches performed
      refine ⟨new ++ events, by rw [newLog, log, List.append_assoc], fun execution member => ?_⟩
      rcases List.mem_append.mp member with now | before
      · exact ⟨s₁, claim, first, authorized execution now⟩
      · exact earlier execution before
    · exact ⟨events, by rw [same, log], earlier⟩
    · exact ⟨events, by rw [moved.log, log], earlier⟩

theorem Reachable.keeps_where {rules : RunRules}
    {ok : SystemState → Action Claim Oracle Move → Prop} {P : RunView → Prop} {runID : String}
    (reachable : Reachable handlers s) (run : RunWhere (system handlers) ok s s')
    (bound : ∀ {t t' a}, Reachable handlers t → ok t a → (system handlers).step t a = some t' →
      ViewStep rules t.world.db t'.world.db)
    (kept : ∀ v v', v.Proper → v.Sound → RunStep rules runID v v' → P v → P v')
    (holds : P (s.world.db.view runID)) : P (s'.world.db.view runID) := by
  induction run with
  | start => exact holds
  | @step s₁ s₂ a first fine stepped ih =>
    have there : Reachable handlers s₁ :=
      RunWhere.trans reachable (first.weaken fun _ _ _ => trivial)
    rcases bound there fine stepped runID with same | step
    · rw [same]
      exact ih
    · exact kept _ _ (s₁.world.db.view_proper runID) (there.holds.inv.sound runID) step ih

theorem Reachable.keeps {P : RunView → Prop} {runID : String} (reachable : Reachable handlers s)
    (run : (system handlers).Run s s')
    (kept : ∀ v v', v.Proper → v.Sound → RunStep .free runID v v' → P v → P v')
    (holds : P (s.world.db.view runID)) : P (s'.world.db.view runID) :=
  reachable.keeps_where run (fun there _ stepped => there.step_free stepped) kept holds

end RepoLens
