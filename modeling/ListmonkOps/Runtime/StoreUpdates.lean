/-
Updates of a JSON file store are serialized.

A task keeps what the others count on at each of its calls. A lock that it was told to have
made is its own until it removes it; a lock that somebody else has left is removed only
under the recovery file, by one task at a time, and cannot be another one by then. So what
is read under a lock is still there when it is replaced.
-/

import Mathlib.Data.List.Nodup
import Mathlib.Data.List.Infix
import ListmonkOps.Runtime.FileLock

namespace ListmonkOps.Runtime.FileLock

open ListmonkOps.Math

variable {V ρ ε : Type}

section Team

variable {pidOf : ℕ → ℕ} {update : ℕ → V → Except ε (V × ρ)} {initial : V} {task : ℕ}
  {before after : Disk V ρ}

/-! ## Effects -/

section Effects

variable {disk : Disk V ρ} {path : LockPath}

theorem files_setFile_self {content : Option (Option LockMetadata)} :
    (disk.setFile path content).files path = content :=
  Function.update_self _ _ _

theorem files_setFile_of_ne {other : LockPath} {content : Option (Option LockMetadata)}
    (h : other ≠ path) : (disk.setFile path content).files other = disk.files other :=
  Function.update_of_ne h _ _

theorem known_setKnown {pid other : ℕ} {otherPath : LockPath} {token : Option LockToken}
    {known : LockToken} (h : (disk.setKnown pid path token).known other otherPath = some known) :
    token = some known ∨ disk.known other otherPath = some known := by
  change Function.update disk.known pid _ other otherPath = some known at h
  by_cases hpid : other = pid
  · subst hpid
    rw [Function.update_self] at h
    by_cases hpath : otherPath = path
    · rw [hpath, Function.update_self] at h
      exact .inl h
    · rw [Function.update_of_ne hpath] at h
      exact .inr h
  · rw [Function.update_of_ne hpid] at h
    exact .inr h

theorem Guarantee.refl (task : ℕ) (disk : Disk V ρ) : Guarantee task disk disk where
  dead := rfl
  files _ _ h := .inl h
  forsaken _ := ⟨.inl, fun h => h.elim id And.left⟩
  store := .inl ⟨rfl, rfl⟩

theorem Guarantee.setKnown (pid : ℕ) (token : Option LockToken) :
    Guarantee task disk (disk.setKnown pid path token) where
  dead := rfl
  files _ _ h := .inl h
  forsaken _ := ⟨.inl, fun h => h.elim id And.left⟩
  store := .inl ⟨rfl, rfl⟩

theorem Guarantee.setFile {content : Option (Option LockMetadata)}
    (h : ∀ metadata, disk.files path = some (some metadata) → Removable task disk path metadata) :
    Guarantee task disk (disk.setFile path content) where
  dead := rfl
  files other metadata hfile := by
    by_cases hsame : other = path
    · subst hsame
      exact .inr (h metadata hfile)
    · exact .inl ((files_setFile_of_ne hsame).trans hfile)
  forsaken _ := ⟨.inl, fun h => h.elim id And.left⟩
  store := .inl ⟨rfl, rfl⟩

theorem Guarantee.forsake {token : LockToken} (htask : token.task = task) (pid : ℕ) :
    Guarantee task disk ((disk.setKnown pid path (some token)).forsake token) where
  dead := rfl
  files _ _ h := .inl h
  forsaken other := by
    refine ⟨fun h => ?_, fun h => h.elim (List.mem_cons_of_mem _) And.left⟩
    rcases List.mem_cons.mp h with rfl | hmem
    · exact .inr ⟨h, htask⟩
    · exact .inl hmem
  store := .inl ⟨rfl, rfl⟩

theorem Guarantee.commit {metadata : LockMetadata} (htask : metadata.token.task = task)
    (hlock : disk.files .lock = some (some metadata)) (value : V) (result : ρ) :
    Guarantee task disk (disk.commit task value result) where
  dead := rfl
  files _ _ h := .inl h
  forsaken _ := ⟨.inl, fun h => h.elim id And.left⟩
  store := .inr ⟨metadata, result, htask, hlock, rfl⟩

theorem Invariant.setKnown (h : Invariant pidOf update initial disk) (pid : ℕ) (path : LockPath)
    {token : Option LockToken} (hknown : ∀ known, token = some known → known ∈ disk.forsaken) :
    Invariant pidOf update initial (disk.setKnown pid path token) where
  owner := h.owner
  recoverer := h.recoverer
  known other otherPath known hother :=
    (known_setKnown hother).elim (hknown known) (h.known other otherPath known)
  chain := h.chain
  once := h.once

theorem Invariant.create (h : Invariant pidOf update initial disk) {metadata : LockMetadata}
    (hpid : metadata.pid = pidOf metadata.token.task) (hpath : metadata.token.path = path)
    (hhere : ¬ Gone disk metadata) :
    Invariant pidOf update initial (disk.setFile path (some (some metadata))) where
  owner other found hfile := by
    by_cases hsame : other = path
    · subst hsame
      rw [files_setFile_self] at hfile
      obtain rfl := Option.some.inj (Option.some.inj hfile)
      exact ⟨hpid, hpath⟩
    · rw [files_setFile_of_ne hsame] at hfile
      exact h.owner other found hfile
  recoverer found hfile := by
    by_cases hsame : LockPath.recovery = path
    · subst hsame
      rw [files_setFile_self] at hfile
      obtain rfl := Option.some.inj (Option.some.inj hfile)
      exact hhere
    · rw [files_setFile_of_ne hsame] at hfile
      exact h.recoverer found hfile
  known := h.known
  chain := h.chain
  once := h.once

theorem Invariant.remove (h : Invariant pidOf update initial disk) :
    Invariant pidOf update initial (disk.setFile path none) where
  owner other found hfile := by
    by_cases hsame : other = path
    · rw [hsame, files_setFile_self] at hfile
      cases hfile
    · rw [files_setFile_of_ne hsame] at hfile
      exact h.owner other found hfile
  recoverer found hfile := by
    by_cases hsame : LockPath.recovery = path
    · rw [hsame, files_setFile_self] at hfile
      cases hfile
    · rw [files_setFile_of_ne hsame] at hfile
      exact h.recoverer found hfile
  known := h.known
  chain := h.chain
  once := h.once

theorem Invariant.forsake (h : Invariant pidOf update initial disk) {token : LockToken}
    (hpath : token.path = .lock) (pid : ℕ) :
    Invariant pidOf update initial ((disk.setKnown pid .lock (some token)).forsake token) where
  owner := h.owner
  recoverer found hfile := by
    rintro (hdead | hforsaken)
    · exact h.recoverer found hfile (.inl hdead)
    · rcases List.mem_cons.mp hforsaken with rfl | hmem
      · cases (h.owner .recovery found hfile).2.symm.trans hpath
      · exact h.recoverer found hfile (.inr hmem)
  known other otherPath known hother := by
    have hlearnt : (disk.setKnown pid .lock (some token)).known other otherPath = some known := hother
    rcases known_setKnown hlearnt with hnew | hold
    · obtain rfl := Option.some.inj hnew
      exact List.mem_cons_self
    · exact List.mem_cons_of_mem _ (h.known _ _ _ hold)
  chain := h.chain
  once := h.once

theorem Invariant.commit (h : Invariant pidOf update initial disk) {next : V} {result : ρ}
    (happly : update task disk.value = .ok (next, result))
    (hnew : ∀ result, (task, result) ∉ disk.commits) :
    Invariant pidOf update initial (disk.commit task next result) where
  owner := h.owner
  recoverer := h.recoverer
  known := h.known
  chain := h.chain.snoc happly
  once := by
    rw [Disk.commit, List.map_append, List.nodup_append']
    refine ⟨h.once, List.nodup_singleton _, ?_⟩
    rw [List.map_singleton, List.disjoint_singleton]
    intro hmem
    obtain ⟨⟨_, other⟩, hother, rfl⟩ := List.mem_map.mp hmem
    exact hnew other hother

end Effects

/-! ## Rules -/

section Rules

variable {α β : Type} {disk : Disk V ρ} {path : LockPath} {F : Disk V ρ → Prop}

/-- An assertion about the disk that the other tasks cannot take away from a task. -/
abbrev Stable (pidOf : ℕ → ℕ) (update : ℕ → V → Except ε (V × ρ)) (initial : V) (task : ℕ)
    (P : Disk V ρ → Prop) : Prop :=
  (team pidOf update initial).Stable task P

/-- The team's judgement of a program of a task. -/
abbrev Among (pidOf : ℕ → ℕ) (update : ℕ → V → Except ε (V × ρ)) (initial : V) (task : ℕ)
    (program : LockProgram V ρ ε α) (Q : α → Disk V ρ → Prop) (E : LockError ε → Disk V ρ → Prop)
    (disk : Disk V ρ) : Prop :=
  (team pidOf update initial).FallibleAmong task program Q E disk

/-- An assertion that a task keeps while it changes a file and what its process knows. -/
structure Framed (pidOf : ℕ → ℕ) (update : ℕ → V → Except ε (V × ρ)) (initial : V) (task : ℕ)
    (path : LockPath) (F : Disk V ρ → Prop) : Prop where
  stable : Stable pidOf update initial task F
  known : ∀ {disk pid path token}, F disk → F (disk.setKnown pid path token)
  file : ∀ {disk content}, F disk → F (disk.setFile path content)

theorem among_quiet {call : LockCall V ρ} {read : LockAnswer V ε → Except (LockError ε) β}
    {Q : β → Disk V ρ → Prop} {E : LockError ε → Disk V ρ → Prop}
    (hF : Stable pidOf update initial task F) (h : F disk) (hplain : ¬ call.accessesStore)
    (hquiet : ∀ disk (move : LockMove ε), effect task (pidOf task) disk move call = disk)
    (hQ : ∀ b, Stable pidOf update initial task (Q b))
    (hE : ∀ error, Stable pidOf update initial task (E error))
    (hread : ∀ disk move, Invariant pidOf update initial disk → F disk →
      (team pidOf update initial).allowed task call move →
        Fallible.ends Q E (read (answer (pidOf task) disk move call)) disk) :
    Among pidOf update initial task (Fallible.ask call read) Q E disk := by
  refine Team.fallibleAmong_ask hF h hQ hE (fun _ _ hstore => absurd hstore hplain)
    fun current hinv _ hcurrent move hallowed => ?_
  change Invariant pidOf update initial (effect task (pidOf task) current move call) ∧
    Guarantee task current (effect task (pidOf task) current move call) ∧
      Fallible.ends Q E (read (answer (pidOf task) current move call))
        (effect task (pidOf task) current move call)
  rw [hquiet]
  exact ⟨hinv, .refl task current, hread current move hinv hcurrent hallowed⟩

theorem LockMove.ends_report {move : LockMove ε} {value : β} {Q : β → Disk V ρ → Prop}
    {E : LockError ε → Disk V ρ → Prop} (returns : move.failure = none → Q value disk)
    (throws : ∀ error, move.failure = some error → E (.thrown error) disk) :
    Fallible.ends Q E (move.report value) disk := by
  cases hfailure : move.failure with
  | none =>
      simp only [LockMove.report, hfailure]
      exact returns hfailure
  | some error =>
      simp only [LockMove.report, hfailure]
      exact throws error hfailure

theorem among_perform {call : LockCall V ρ} (hF : Stable pidOf update initial task F) (h : F disk)
    (hplain : ¬ call.accessesStore)
    (hquiet : ∀ disk (move : LockMove ε), effect task (pidOf task) disk move call = disk) :
    Among pidOf update initial task (perform call) (fun _ => F) (fun _ => F) disk := by
  refine among_quiet hF h hplain hquiet (fun _ => hF) (fun _ => hF) fun current move _ hcurrent _ => ?_
  cases (answer (pidOf task) current move call).done with
  | ok done => exact hcurrent
  | error error => exact hcurrent

theorem among_deleteKnown {E : LockError ε → Disk V ρ → Prop}
    (hF : Framed pidOf update initial task path F) (h : F disk) (other : LockPath)
    (hE : ∀ error, Stable pidOf update initial task (E error)) :
    Among pidOf update initial task (perform (.deleteKnown other)) (fun _ => F) E disk := by
  refine Team.fallibleAmong_ask hF.stable h (fun _ => hF.stable) hE
    (fun _ _ => False.elim) fun current hinv _ hcurrent move _ => ?_
  exact ⟨hinv.setKnown _ _ nofun, .setKnown _ _, hF.known hcurrent⟩

/-- The lock is there, and its task has not given it up. -/
def Held (path : LockPath) (metadata : LockMetadata) (disk : Disk V ρ) : Prop :=
  disk.files path = some (some metadata) ∧ metadata.token ∉ disk.forsaken

theorem stable_held {metadata : LockMetadata} (htask : metadata.token.task = task) :
    Stable pidOf update initial task (Held path metadata) := by
  rintro before after ⟨hfile, hkept⟩ - hrely
  exact ⟨hrely.mine path metadata htask hkept hfile,
    fun hmem => hkept ((hrely.forsaken _ htask).mp hmem)⟩

theorem Stable.and {P P' : Disk V ρ → Prop} (h : Stable pidOf update initial task P)
    (h' : Stable pidOf update initial task P') :
    Stable pidOf update initial task fun disk => P disk ∧ P' disk :=
  fun before after hP hinv hrely => ⟨h before after hP.1 hinv hrely, h' before after hP.2 hinv hrely⟩

theorem stable_const (P : Prop) : Stable pidOf update initial task fun _ : Disk V ρ => P :=
  fun _ _ h _ _ => h

theorem Stable.imp {P : Disk V ρ → Prop} {c : Prop} (h : c → Stable pidOf update initial task P) :
    Stable pidOf update initial task fun disk => c → P disk :=
  fun before after hP hinv hrely hc => h hc before after (hP hc) hinv hrely

theorem stable_gone (metadata : LockMetadata) :
    Stable pidOf update initial task fun disk : Disk V ρ => Gone disk metadata :=
  fun _ _ h _ hrely => hrely.gone metadata h

theorem among_bind {program : LockProgram V ρ ε α} {next : α → LockProgram V ρ ε β}
    {Q : β → Disk V ρ → Prop} {E : LockError ε → Disk V ρ → Prop} (between : α → Disk V ρ → Prop)
    (hE : ∀ error, Stable pidOf update initial task (E error))
    (h : Among pidOf update initial task program between E disk)
    (hnext : ∀ a current, Invariant pidOf update initial current → between a current →
      Among pidOf update initial task (next a) Q E current) :
    Among pidOf update initial task (program >>= next) Q E disk :=
  Team.fallibleAmong_bind lawful_team hE (h.imp hnext fun _ _ _ h => h)

theorem among_attempt {block : LockProgram V ρ ε α}
    {Q : Except (LockError ε) α → Disk V ρ → Prop} {E : LockError ε → Disk V ρ → Prop}
    (hQ : ∀ outcome, Stable pidOf update initial task (Q outcome))
    (h : Among pidOf update initial task block (fun a => Q (.ok a)) (fun error => Q (.error error))
      disk) :
    Among pidOf update initial task (attempt block) Q E disk :=
  Team.fallibleAmong_lift lawful_team hQ h

/-! ## Locks -/

variable {metadata : LockMetadata}

/-- A link that is told to have been made is a lock that the task holds. -/
theorem among_link (hF : Framed pidOf update initial task path F)
    (htask : metadata.token.task = task) (hpath : metadata.token.path = path)
    (hpid : metadata.pid = pidOf task) (hfresh : ∀ disk, F disk → metadata.token ∉ disk.forsaken)
    (h : F disk) :
    Among pidOf update initial task (Fallible.ask (.link path metadata) (·.linked))
      (fun created current => F current ∧ (created = true → Held path metadata current))
      (fun _ => F) disk := by
  refine Team.fallibleAmong_ask hF.stable h
    (fun _ => hF.stable.and (.imp fun _ => stable_held htask)) (fun _ => hF.stable)
    (fun _ _ => False.elim) fun now hinv hlive hnow move _ => ?_
  change Invariant pidOf update initial (effect task (pidOf task) now move (.link path metadata)) ∧
    Guarantee task now (effect task (pidOf task) now move (.link path metadata)) ∧
      Fallible.ends _ _ (move.report (decide (now.files path = none)))
        (effect task (pidOf task) now move (.link path metadata))
  by_cases hlinks : now.files path = none ∧ move.occurs
  · rw [effect, if_pos hlinks]
    have hhere : ¬ Gone now metadata := by
      rintro (hdead | hforsaken)
      · exact hlive (hpid ▸ hdead)
      · exact hfresh now hnow hforsaken
    refine ⟨hinv.create (hpid.trans (congrArg pidOf htask.symm)) hpath hhere, .setFile ?_, ?_⟩
    · intro found hfound
      cases hlinks.1.symm.trans hfound
    · refine LockMove.ends_report (fun _ => ?_) fun _ _ => hF.file hnow
      exact ⟨hF.file hnow, fun _ => ⟨files_setFile_self, hfresh now hnow⟩⟩
  · rw [effect, if_neg hlinks]
    refine ⟨hinv, .refl task now, LockMove.ends_report (fun hfailure => ?_) fun _ _ => hnow⟩
    have htaken : now.files path ≠ none := fun hnone =>
      hlinks ⟨hnone, by simp [LockMove.occurs, hfailure]⟩
    rw [decide_eq_false htaken]
    exact ⟨hnow, nofun⟩

theorem among_createLockFile (hF : Framed pidOf update initial task path F)
    (htask : metadata.token.task = task) (hpath : metadata.token.path = path)
    (hpid : metadata.pid = pidOf task) (hfresh : ∀ disk, F disk → metadata.token ∉ disk.forsaken)
    (h : F disk) :
    Among pidOf update initial task (createLockFile path metadata)
      (fun created current => F current ∧ (created = true → Held path metadata current))
      (fun _ => F) disk := by
  have hheld : Stable pidOf update initial task (Held path metadata) := stable_held htask
  have hcreated : ∀ created : Except (LockError ε) Bool, Stable pidOf update initial task
      fun current => F current ∧ (created = .ok true → Held path metadata current) :=
    fun created => hF.stable.and (.imp fun _ => hheld)
  rw [createLockFile]
  refine among_bind (fun created current => F current ∧
    (created = .ok true → Held path metadata current)) (fun _ => hF.stable)
    (among_attempt hcreated ?_) ?_
  · refine among_bind (fun _ => F) (fun error => hcreated (.error error)) ?_ ?_
    · refine (among_perform hF.stable h id fun _ _ => rfl).imp (fun _ _ _ h => h) ?_
      exact fun error current _ hcurrent => ⟨hcurrent, nofun⟩
    · intro _ current _ hcurrent
      refine (among_link hF htask hpath hpid hfresh hcurrent).imp ?_ ?_
      · exact fun created _ _ hlinked => ⟨hlinked.1, fun htrue => hlinked.2 (Except.ok.inj htrue)⟩
      · exact fun error _ _ hnow => ⟨hnow, nofun⟩
  · rintro operation current - ⟨hcurrent, hmade⟩
    refine among_bind (fun _ now => F now ∧ (operation = .ok true → Held path metadata now))
      (fun _ => hF.stable) (among_attempt (fun _ => hcreated operation) ?_) ?_
    · exact among_perform (hcreated operation) ⟨hcurrent, hmade⟩ id fun _ _ => rfl
    · rintro cleanup now - ⟨hnow, hmade⟩
      have hfailed : ∀ error, Among pidOf update initial task (throw error : LockProgram V ρ ε Bool)
          (fun created current => F current ∧ (created = true → Held path metadata current))
          (fun _ => F) now := fun error => Team.fallibleAmong_throw hF.stable hnow
      rcases operation with error | _ | _
      · exact hfailed error
      · cases cleanup with
        | error error => exact hfailed error
        | ok _ =>
            exact Team.fallibleAmong_pure (hF.stable.and (.imp fun _ => hheld)) ⟨hnow, nofun⟩
      · refine among_bind (fun _ later => F later ∧ Held path metadata later)
          (fun _ => hF.stable) ?_ ?_
        · refine Team.fallibleAmong_ask (hF.stable.and hheld) ⟨hnow, hmade rfl⟩
            (fun _ => hF.stable.and hheld) (fun _ => hF.stable)
            (fun _ _ => False.elim) fun later hinv _ hlater move _ => ?_
          exact ⟨hinv.setKnown _ _ nofun, .setKnown _ _, hF.known hlater.1, hlater.2⟩
        · rintro _ later - ⟨hlater, hmine⟩
          exact Team.fallibleAmong_pure (hF.stable.and (.imp fun _ => hheld))
            ⟨hlater, fun _ => hmine⟩

/-- A file is removed where the task may do so. -/
theorem among_unlink {P : Disk V ρ → Prop} {E : LockError ε → Disk V ρ → Prop}
    (hP : Stable pidOf update initial task P) (h : P disk) (hF : Framed pidOf update initial task path F)
    (hE : ∀ error, Stable pidOf update initial task (E error)) (hweak : ∀ current, P current → F current)
    (hremovable : ∀ current, Invariant pidOf update initial current → P current →
      ∀ found, current.files path = some (some found) → Removable task current path found)
    (hfails : ∀ (move : LockMove ε) error after,
      (team pidOf update initial).allowed task (.unlink path) move → move.failure = some error →
        F after → E (.thrown error) after) :
    Among pidOf update initial task (perform (.unlink path)) (fun _ => F) E disk := by
  refine Team.fallibleAmong_ask hP h (fun _ => hF.stable) hE (fun _ _ => False.elim)
    fun current hinv _ hcurrent move hallowed => ?_
  have hends : ∀ after, F after → Fallible.ends (fun _ => F) E (move.report ()) after :=
    fun after hafter => LockMove.ends_report (fun _ => hafter)
      fun error hfailure => hfails move error after hallowed hfailure hafter
  change Invariant pidOf update initial (if move.occurs then current.setFile path none else current) ∧
    Guarantee task current (if move.occurs then current.setFile path none else current) ∧
      Fallible.ends (fun _ => F) E (move.report ())
        (if move.occurs then current.setFile path none else current)
  cases move.occurs with
  | true =>
      refine ⟨hinv.remove, .setFile (hremovable current hinv hcurrent), hends _ ?_⟩
      exact hF.file (hweak current hcurrent)
  | false => exact ⟨hinv, .refl task current, hends _ (hweak current hcurrent)⟩

/-- What a removal of a deserted lock relies on: the lock may be removed, and stays as it is until
somebody does. -/
structure Clears (pidOf : ℕ → ℕ) (update : ℕ → V → Except ε (V × ρ)) (initial : V) (task : ℕ)
    (path : LockPath) (F : Disk V ρ → Prop) : Prop where
  framed : Framed pidOf update initial task path F
  removable : ∀ {disk metadata}, Invariant pidOf update initial disk → F disk →
    disk.files path = some (some metadata) → Gone disk metadata → Removable task disk path metadata
  stays : ∀ {disk after metadata}, Invariant pidOf update initial disk → F disk →
    disk.files path = some (some metadata) → Gone disk metadata → Rely task disk after →
      after.files path = some (some metadata)

/-- A lock that is there and whose owner is gone, so that nobody else will remove it. -/
structure Deserted (pidOf : ℕ → ℕ) (update : ℕ → V → Except ε (V × ρ)) (initial : V)
    (path : LockPath) (F : Disk V ρ → Prop) (metadata : LockMetadata) (disk : Disk V ρ) : Prop where
  invariant : Invariant pidOf update initial disk
  holds : F disk
  file : disk.files path = some (some metadata)
  gone : Gone disk metadata

theorem Deserted.later (h : Deserted pidOf update initial path F metadata before)
    (hF : Clears pidOf update initial task path F) (hinv : Invariant pidOf update initial after)
    (hrely : Rely task before after) : Deserted pidOf update initial path F metadata after :=
  ⟨hinv, hF.framed.stable before after h.holds hinv hrely,
    hF.stays h.invariant h.holds h.file h.gone hrely, hrely.gone metadata h.gone⟩

theorem stable_deserted (hF : Clears pidOf update initial task path F) :
    Stable pidOf update initial task (Deserted pidOf update initial path F metadata) :=
  fun _ _ h hinv hrely => h.later hF hinv hrely

theorem among_removeAfterRecheck (hF : Clears pidOf update initial task path F)
    (hpid : metadata.pid = pidOf metadata.token.task) (isKnownAbandoned : Bool)
    (h : F disk) (hgone : Gone disk metadata) :
    Among pidOf update initial task (removeAfterRecheck path metadata.token isKnownAbandoned)
      (fun _ => F) (fun _ => F) disk := by
  have hstable := hF.framed.stable
  have hforget : ∀ now b, F now → Among pidOf update initial task
      (do
        if isKnownAbandoned then perform (.deleteKnown path)
        pure b : LockProgram V ρ ε Bool) (fun _ => F) (fun _ => F) now := by
    intro now b hnow
    cases isKnownAbandoned with
    | true =>
        refine among_bind (fun _ => F) (fun _ => hstable)
          (among_deleteKnown hF.framed hnow path fun _ => hstable) ?_
        exact fun _ current _ hcurrent => Team.fallibleAmong_pure hstable hcurrent
    | false => exact Team.fallibleAmong_pure hstable hnow
  have hfound : ∀ content : Option (Option LockMetadata), Stable pidOf update initial task fun now =>
      F now ∧ ∀ current, content = some (some current) → current.token = metadata.token →
        Deserted pidOf update initial path F current now := by
    rintro content now after ⟨hnow, hcurrent⟩ hinv hrely
    refine ⟨hstable now after hnow hinv hrely, fun current hcontent htoken => ?_⟩
    exact (hcurrent current hcontent htoken).later hF hinv hrely
  rw [removeAfterRecheck]
  refine among_bind _ (fun _ => hstable) (among_quiet (hstable.and (stable_gone metadata))
    ⟨h, hgone⟩ id (fun _ _ => rfl) hfound (fun _ => hstable) ?_) ?_
  · rintro now move hinv ⟨hnow, hgone⟩ -
    change Fallible.ends _ _ (move.report (now.files path)) now
    refine LockMove.ends_report (fun _ => ⟨hnow, ?_⟩) fun _ _ => hnow
    intro current hcontent htoken
    have hsame : current = metadata := by
      have hcurrent := (hinv.owner path current hcontent).1
      cases current
      cases metadata
      simp_all
    exact ⟨hinv, hnow, hcontent, hsame ▸ hgone⟩
  · rintro (_ | current) now - ⟨hnow, hcurrent⟩
    · exact Team.fallibleAmong_pure hstable hnow
    · by_cases htoken : current.map (·.token) = some metadata.token
      · simp only [htoken, if_true]
        obtain ⟨found, rfl, hsame⟩ := Option.map_eq_some_iff.mp htoken
        refine among_bind (fun _ => F) (fun _ => hstable) ?_
          fun _ later _ hlater => hforget later true hlater
        refine among_unlink (stable_deserted hF) (hcurrent found rfl hsame) hF.framed
          (fun _ => hstable) (fun _ hlater => hlater.holds) (fun later hinv hlater other hother => ?_)
          fun _ _ _ _ _ hafter => hafter
        obtain rfl := Option.some.inj (Option.some.inj (hother.symm.trans hlater.file))
        exact hF.removable hinv hlater.holds hother hlater.gone
      · simp only [htoken, if_false]
        exact hforget now false hnow

/-- A lock is removed only if its owner is gone. -/
theorem among_removeDeadOwnerFile (hF : Clears pidOf update initial task path F) (h : F disk) :
    Among pidOf update initial task (removeDeadOwnerFile path) (fun _ => F) (fun _ => F) disk := by
  have hstable := hF.framed.stable
  rw [removeDeadOwnerFile]
  refine among_bind (fun content current => F current ∧ ∀ metadata, content = some (some metadata) →
    metadata.pid = pidOf metadata.token.task) (fun _ => hstable)
    (among_quiet hstable h id (fun _ _ => rfl) (fun _ => hstable.and (stable_const _))
      (fun _ => hstable) ?_) ?_
  · intro now move hinv hnow _
    change Fallible.ends _ _ (move.report (now.files path)) now
    refine LockMove.ends_report (fun _ => ⟨hnow, ?_⟩) fun _ _ => hnow
    exact fun metadata hfile => (hinv.owner path metadata hfile).1
  · rintro (_ | _ | metadata) now - ⟨hnow, howner⟩
    · exact Team.fallibleAmong_pure hstable hnow
    · exact Team.fallibleAmong_pure hstable hnow
    · have hpid := howner metadata rfl
      have hgone : ∀ b : Prop, Stable pidOf update initial task fun current =>
          F current ∧ (b → Gone current metadata) :=
        fun b => hstable.and (.imp fun _ => stable_gone metadata)
      refine among_bind (fun known current => F current ∧
        (known = some metadata.token → Gone current metadata)) (fun _ => hstable)
        (among_quiet hstable hnow id (fun _ _ => rfl) (fun _ => hgone _) (fun _ => hstable) ?_) ?_
      · exact fun current move hinv hcurrent _ =>
          ⟨hcurrent, fun hknown => .inr (hinv.known _ _ _ hknown)⟩
      · rintro known current - ⟨hcurrent, hknown⟩
        split_ifs with hsame
        · exact among_removeAfterRecheck hF hpid true hcurrent (hknown hsame)
        · refine among_bind (fun alive later => F later ∧ (alive = false → Gone later metadata))
            (fun _ => hstable)
            (among_quiet hstable hcurrent id (fun _ _ => rfl) (fun _ => hgone _) (fun _ => hstable) ?_) ?_
          · intro later move _ hlater _
            refine ⟨hlater, fun halive => .inl ?_⟩
            exact not_not.mp (of_decide_eq_false halive)
          · rintro (_ | _) later - ⟨hlater, hdead⟩
            · exact among_removeAfterRecheck hF hpid false hlater (hdead rfl)
            · exact Team.fallibleAmong_pure hstable hlater

/-- A lock that is held is released; only the release of the store's lock may fail. -/
theorem among_releaseLock (hF : Framed pidOf update initial task path F)
    (htask : metadata.token.task = task) (h : F disk) (hheld : Held path metadata disk) :
    Among pidOf update initial task (releaseLock path metadata.token) (fun _ => F)
      (fun _ current => path = .lock ∧ F current) disk := by
  have hE : ∀ _ : LockError ε, Stable pidOf update initial task fun current =>
      path = .lock ∧ F current := fun _ => (stable_const _).and hF.stable
  have hheldStable : Stable pidOf update initial task (Held path metadata) := stable_held htask
  have hmine := hF.stable.and hheldStable
  have hfails : ∀ {call : LockCall V ρ} {move : LockMove ε} {error : ε},
      call = .readFile path ∨ call = .unlink path →
        (team pidOf update initial).allowed task call move → move.failure = some error →
          path = .lock := by
    intro call move error hcall hallowed hfailure
    cases path with
    | lock => rfl
    | recovery => cases hfailure.symm.trans (hallowed hcall)
  rw [releaseLock]
  refine among_bind (fun content current => (F current ∧ Held path metadata current) ∧
    content = some (some metadata)) hE (among_quiet hmine ⟨h, hheld⟩ id (fun _ _ => rfl)
      (fun _ => hmine.and (stable_const _)) hE ?_) ?_
  · intro now move _ hnow hallowed
    change Fallible.ends _ _ (move.report (now.files path)) now
    refine LockMove.ends_report (fun _ => ⟨hnow, hnow.2.1⟩) ?_
    exact fun error hfailure => ⟨hfails (.inl rfl) hallowed hfailure, hnow.1⟩
  · rintro content now - ⟨hnow, rfl⟩
    simp only [Option.map_some, if_true]
    refine among_unlink hmine hnow hF hE (fun _ hcurrent => hcurrent.1) ?_
      fun move error after hallowed hfailure hafter => ⟨hfails (.inr rfl) hallowed hfailure, hafter⟩
    rintro current - ⟨-, hfile, hkept⟩ other hother
    obtain rfl := Option.some.inj (Option.some.inj (hother.symm.trans hfile))
    exact .inl ⟨htask, hkept⟩

/-- An assertion that a failed release leaves as it is. -/
structure Lasting (pidOf : ℕ → ℕ) (update : ℕ → V → Except ε (V × ρ)) (initial : V) (task : ℕ)
    (path : LockPath) (F : Disk V ρ → Prop) : Prop extends
    Framed pidOf update initial task path F where
  forsake : ∀ {disk token}, path = .lock → F disk → F (disk.forsake token)

/-- An action that runs with a lock, which is released whatever the action does. -/
theorem among_runWithOwnedLock {action : LockProgram V ρ ε α} {Q : α → Disk V ρ → Prop}
    {E : Disk V ρ → Prop} (hQ : ∀ a, Lasting pidOf update initial task path (Q a))
    (hE : Lasting pidOf update initial task path E) (hweak : ∀ a disk, Q a disk → E disk)
    (htask : metadata.token.task = task) (hpath : metadata.token.path = path)
    (haction : Among pidOf update initial task action
      (fun a current => Q a current ∧ Held path metadata current)
      (fun _ current => E current ∧ Held path metadata current) disk) :
    Among pidOf update initial task (runWithOwnedLock path metadata.token action) Q
      (fun _ => E) disk := by
  have hheld : Stable pidOf update initial task (Held path metadata) := stable_held htask
  have hO : ∀ outcome : Except (LockError ε) α,
      Lasting pidOf update initial task path (Fallible.ends Q (fun _ => E) outcome) := by
    intro outcome
    cases outcome with
    | ok a => exact hQ a
    | error error => exact hE
  rw [runWithOwnedLock]
  refine among_bind (fun outcome current => Fallible.ends Q (fun _ => E) outcome current ∧
      Held path metadata current) (fun _ => hE.stable)
    (among_attempt (fun outcome => (hO outcome).stable.and hheld) haction) ?_
  rintro outcome current - ⟨hcurrent, hmine⟩
  have hframed := (hO outcome).toFramed
  have hreleased : ∀ release : Except (LockError ε) Unit, Stable pidOf update initial task fun now =>
      (release.isOk = false → path = .lock) ∧ Fallible.ends Q (fun _ => E) outcome now :=
    fun release => (stable_const _).and hframed.stable
  refine among_bind (fun release now => (release.isOk = false → path = .lock) ∧
      Fallible.ends Q (fun _ => E) outcome now) (fun _ => hE.stable)
    (among_attempt hreleased ?_) ?_
  · refine among_bind (fun _ => Fallible.ends Q (fun _ => E) outcome) (fun _ => hreleased (.error _)) ?_ ?_
    · refine (among_releaseLock hframed htask hcurrent hmine).imp (fun _ _ _ h => h) ?_
      exact fun error now _ hfailed => ⟨fun _ => hfailed.1, hfailed.2⟩
    · intro _ now _ hnow
      refine among_bind (fun _ => Fallible.ends Q (fun _ => E) outcome)
        (fun _ => hreleased (.error _))
        (among_quiet hframed.stable hnow id (fun _ _ => rfl) (fun _ => hframed.stable)
          (fun _ => hreleased (.error _)) fun _ _ _ hlater _ => hlater) ?_
      intro known later _ hlater
      split_ifs
      · refine (among_deleteKnown hframed hlater path fun _ => stable_const False).imp ?_ ?_
        · exact fun _ after _ hafter => ⟨nofun, hafter⟩
        · exact fun _ _ _ h => h.elim
      · exact Team.fallibleAmong_pure (hreleased (.ok ())) ⟨nofun, hlater⟩
  · rintro (releaseError | _) now - ⟨hlock, hnow⟩
    · refine among_bind (fun _ => Fallible.ends Q (fun _ => E) outcome) (fun _ => hE.stable) ?_ ?_
      · refine Team.fallibleAmong_ask hframed.stable hnow (fun _ => hframed.stable)
          (fun _ => hE.stable) (fun _ _ => False.elim) fun later hinv _ hlater move _ => ?_
        obtain rfl : path = .lock := hlock rfl
        exact ⟨hinv.forsake hpath _, .forsake htask _,
          (hO outcome).forsake rfl (hframed.known hlater)⟩
      · intro _ later _ hlater
        cases outcome with
        | ok a => exact Team.fallibleAmong_throw hE.stable (hweak a later hlater)
        | error error => exact Team.fallibleAmong_throw hE.stable hlater
    · cases outcome with
      | ok a => exact Team.fallibleAmong_pure (hQ a).stable hnow
      | error error => exact Team.fallibleAmong_throw hE.stable hnow

/-! ## Attempts -/

/-- What holds while a task waits: the tokens of its further attempts are new, and its update is
still to come. -/
structure Waits (task left : ℕ) (disk : Disk V ρ) : Prop where
  fresh : ∀ token : LockToken, token.task = task → token.left < left → token ∉ disk.forsaken
  pending : ∀ result, (task, result) ∉ disk.commits

theorem Waits.next {left : ℕ} (h : Waits task (left + 1) disk) : Waits task left disk :=
  ⟨fun token htask hleft => h.fresh token htask (Nat.lt_succ_of_lt hleft), h.pending⟩

theorem Waits.setKnown {left pid : ℕ} {token : Option LockToken} (h : Waits task left disk) :
    Waits task left (disk.setKnown pid path token) :=
  ⟨h.fresh, h.pending⟩

theorem Waits.setFile {left : ℕ} {content : Option (Option LockMetadata)} (h : Waits task left disk) :
    Waits task left (disk.setFile path content) :=
  ⟨h.fresh, h.pending⟩

theorem stable_waits (left : ℕ) :
    Stable pidOf update initial task (Waits (V := V) task left) := by
  rintro before after hwaits - hrely
  refine ⟨fun token htask hleft hmem => ?_, fun result hmem => ?_⟩
  · exact hwaits.fresh token htask hleft ((hrely.forsaken token htask).mp hmem)
  · exact hwaits.pending result ((hrely.commits result).mp hmem)

theorem framed_waits (left : ℕ) : Framed pidOf update initial task path (Waits (V := V) task left) :=
  ⟨stable_waits left, .setKnown, .setFile⟩

/-- Nobody deserts a recovery, so none is removed but by its owner. -/
theorem clears_recovery (left : ℕ) :
    Clears pidOf update initial task .recovery (Waits (V := V) (ρ := ρ) task left) where
  framed := framed_waits left
  removable hinv _ hfile hgone := absurd hgone (hinv.recoverer _ hfile)
  stays hinv _ hfile hgone _ := absurd hgone (hinv.recoverer _ hfile)

/-- Under its recovery, a task may remove a deserted lock, and nobody else does. -/
theorem clears_lock (left : ℕ) (htask : metadata.token.task = task) :
    Clears pidOf update initial task .lock
      fun disk : Disk V ρ => Waits task left disk ∧ Held .recovery metadata disk where
  framed :=
    { stable := (stable_waits left).and (stable_held htask)
      known := fun h => ⟨h.1.setKnown, h.2⟩
      file := fun h => ⟨h.1.setFile,
        (files_setFile_of_ne (show LockPath.recovery ≠ .lock by decide)).trans h.2.1, h.2.2⟩ }
  removable _ h _ hgone := .inr ⟨rfl, hgone, metadata, htask, h.2.1⟩
  stays _ h hfile hgone hrely := hrely.deserted metadata _ htask h.2.2 h.2.1 hfile hgone

theorem among_createLockFile_next (path : LockPath) {left : ℕ} (h : Waits task (left + 1) disk) :
    Among pidOf update initial task
      (createLockFile path (createLockMetadata task (pidOf task) path left))
      (fun created current => Waits task (left + 1) current ∧
        (created = true → Held path (createLockMetadata task (pidOf task) path left) current))
      (fun _ => Waits task (left + 1)) disk :=
  among_createLockFile (framed_waits _) rfl rfl rfl
    (fun _ hdisk => hdisk.fresh _ rfl (Nat.lt_succ_self left)) h

theorem among_removeAbandonedLock {left : ℕ} (h : Waits task (left + 1) disk) :
    Among pidOf update initial task (removeAbandonedLock task (pidOf task) left)
      (fun _ => Waits task (left + 1)) (fun _ => Waits task (left + 1)) disk := by
  have hlasting : Lasting pidOf update initial task .recovery (Waits (V := V) task (left + 1)) :=
    ⟨framed_waits (left + 1), fun hpath => absurd hpath (by decide)⟩
  rw [removeAbandonedLock]
  refine among_bind _ (fun _ => stable_waits _) (among_createLockFile_next .recovery h) ?_
  rintro (_ | _) current - ⟨hcurrent, hmade⟩
  · refine among_bind _ (fun _ => stable_waits _)
      (among_removeDeadOwnerFile (clears_recovery (left + 1)) hcurrent) ?_
    exact fun _ later _ hlater => Team.fallibleAmong_pure (stable_waits _) hlater
  · exact among_runWithOwnedLock (fun _ => hlasting) hlasting (fun _ _ hdisk => hdisk) rfl rfl
      (among_removeDeadOwnerFile (clears_lock (left + 1) rfl) ⟨hcurrent, hmade rfl⟩)

theorem among_orThrow {program : LockProgram V ρ ε α} {Q : α → Disk V ρ → Prop}
    {E : LockError ε → Disk V ρ → Prop} (h : Among pidOf update initial task program Q E disk) :
    Among pidOf update initial task program Q (fun _ _ => True) disk :=
  h.imp (fun _ _ _ h => h) fun _ _ _ _ => trivial

/-- The update of a task is still to come. -/
def Pending (task : ℕ) (disk : Disk V ρ) : Prop := ∀ result, (task, result) ∉ disk.commits

/-- The token that a task is told is that of the lock it holds, and its update is still to come.
-/
def Acquired (task pid : ℕ) (token : LockToken) (disk : Disk V ρ) : Prop :=
  ∃ left, token = (createLockMetadata task pid .lock left).token ∧
    Held .lock (createLockMetadata task pid .lock left) disk ∧ Pending task disk

theorem stable_pending :
    Stable pidOf update initial task (Pending (V := V) (ρ := ρ) task) :=
  fun _ _ h _ hrely result hmem => h result ((hrely.commits result).mp hmem)

theorem stable_acquired (token : LockToken) :
    Stable pidOf update initial task (Acquired (V := V) (ρ := ρ) task (pidOf task) token) := by
  rintro before after ⟨left, htoken, hheld, hpending⟩ hinv hrely
  exact ⟨left, htoken, stable_held rfl before after hheld hinv hrely,
    stable_pending before after hpending hinv hrely⟩

/-- However often it is tried: who gets a lock has it. -/
theorem among_acquireLock {attempts : ℕ} (h : Waits task attempts disk) :
    Among pidOf update initial task (acquireLock task (pidOf task) attempts)
      (Acquired task (pidOf task)) (fun _ _ => True) disk := by
  have hthrows : ∀ _ : LockError ε, Stable pidOf update initial task fun _ : Disk V ρ => True :=
    fun _ => stable_const True
  induction attempts generalizing disk with
  | zero => exact Team.fallibleAmong_throw (hthrows .timeout) trivial
  | succ left ih =>
      have hretry : ∀ now, Waits task (left + 1) now → Among pidOf update initial task
          (acquireLock task (pidOf task) left) (Acquired task (pidOf task)) (fun _ _ => True) now :=
        fun now hnow => ih hnow.next
      rw [acquireLock]
      refine among_bind _ hthrows (among_orThrow (among_createLockFile_next .lock h)) ?_
      rintro (_ | _) current - ⟨hcurrent, hmade⟩
      · refine among_bind _ hthrows (among_orThrow (among_removeAbandonedLock hcurrent)) ?_
        intro removed now _ hnow
        refine among_bind (fun _ => Waits task (left + 1)) hthrows ?_ ?_
        · exact among_quiet (stable_waits _) hnow id (fun _ _ => rfl) (fun _ => stable_waits _)
            hthrows fun _ _ _ hlater _ => hlater
        · rintro (_ | _) later - hlater
          · cases removed with
            | true => exact hretry later hlater
            | false =>
                refine among_bind (fun _ => Waits task (left + 1)) hthrows
                  (among_orThrow (among_perform (stable_waits _) hlater id fun _ _ => rfl)) ?_
                exact fun _ now _ hnow => hretry now hnow
          · exact Team.fallibleAmong_throw (hthrows .timeout) trivial
      · exact Team.fallibleAmong_pure (stable_acquired _) ⟨left, rfl, hmade rfl, hcurrent.pending⟩

/-- The update of a task has been made, with this result. -/
def Made (task : ℕ) (result : ρ) (disk : Disk V ρ) : Prop := (task, result) ∈ disk.commits

theorem stable_made (result : ρ) :
    Stable pidOf update initial task (Made (V := V) task result) :=
  fun _ _ h _ hrely => (hrely.commits result).mpr h

theorem lasting_made (result : ρ) :
    Lasting pidOf update initial task path (Made (V := V) task result) :=
  ⟨⟨stable_made result, id, id⟩, fun _ => id⟩

theorem lasting_true : Lasting pidOf update initial task path fun _ : Disk V ρ => True :=
  ⟨⟨stable_const True, id, id⟩, fun _ => id⟩

theorem among_modifyStore (htask : metadata.token.task = task) (hheld : Held .lock metadata disk)
    (hpending : Pending task disk) :
    Among pidOf update initial task (modifyStore (update task))
      (fun result current => Made task result current ∧ Held .lock metadata current)
      (fun _ => Held .lock metadata) disk := by
  have hmine : Stable pidOf update initial task (Held .lock metadata) := stable_held htask
  have hready : Stable pidOf update initial task fun current : Disk V ρ =>
      Held .lock metadata current ∧ Pending task current := hmine.and stable_pending
  have howns : ∀ current : Disk V ρ, Held .lock metadata current → Owns task current :=
    fun current h => ⟨metadata, htask, h.1⟩
  have hread : ∀ value, Stable pidOf update initial task fun current : Disk V ρ =>
      (Held .lock metadata current ∧ Pending task current) ∧ current.value = value := by
    rintro value before after ⟨hcurrent, rfl⟩ hinv hrely
    refine ⟨hready before after hcurrent hinv hrely, ?_⟩
    exact hrely.value metadata htask hcurrent.1.2 hcurrent.1.1
  rw [modifyStore]
  refine among_bind (fun value current => (Held .lock metadata current ∧ Pending task current) ∧
    current.value = value) (fun _ => hmine) ?_ ?_
  · refine Team.fallibleAmong_ask hready ⟨hheld, hpending⟩ hread (fun _ => hmine)
      (fun current h _ => howns current h.1) fun current hinv _ hcurrent move _ => ?_
    refine ⟨hinv, .refl task current, ?_⟩
    exact LockMove.ends_report (fun _ => ⟨hcurrent, rfl⟩) fun _ _ => hcurrent.1
  · intro value current _ hcurrent
    cases happly : update task value with
    | error error => exact Team.fallibleAmong_throw hmine hcurrent.1.1
    | ok next =>
        have hmade : Stable pidOf update initial task fun after : Disk V ρ =>
            Made task next.2 after ∧ Held .lock metadata after := (stable_made next.2).and hmine
        change Among pidOf update initial task
          (perform (.renameStore next.1 next.2) >>= fun _ => pure next.2) _ _ current
        refine among_bind (fun _ after => Made task next.2 after ∧ Held .lock metadata after)
          (fun _ => hmine) ?_ fun _ after _ hafter => Team.fallibleAmong_pure hmade hafter
        refine Team.fallibleAmong_ask (hread value) hcurrent (fun _ => hmade) (fun _ => hmine)
          (fun now h _ => howns now h.1.1) fun now hinv _ hnow move _ => ?_
        obtain ⟨⟨hheld, hpending⟩, rfl⟩ := hnow
        change Invariant pidOf update initial
            (if move.occurs then now.commit task next.1 next.2 else now) ∧
          Guarantee task now (if move.occurs then now.commit task next.1 next.2 else now) ∧
            Fallible.ends _ _ (move.report ())
              (if move.occurs then now.commit task next.1 next.2 else now)
        cases hoccurs : move.occurs with
        | true =>
            refine ⟨hinv.commit happly hpending, .commit htask hheld.1 _ _, ?_⟩
            refine LockMove.ends_report (fun _ => ⟨?_, hheld⟩) fun _ _ => hheld
            exact List.mem_append_right _ (List.mem_singleton_self _)
        | false =>
            refine ⟨hinv, .refl task now, LockMove.ends_report (fun hfailure => ?_) fun _ _ => hheld⟩
            simp [LockMove.occurs, hfailure] at hoccurs

theorem among_updateJsonFileStore {attempts : ℕ} (h : Waits task attempts disk) :
    Among pidOf update initial task
      (updateJsonFileStore task (pidOf task) attempts (update task)) (Made task)
      (fun _ _ => True) disk := by
  have hthrows : ∀ _ : LockError ε, Stable pidOf update initial task fun _ : Disk V ρ => True :=
    fun _ => stable_const True
  rw [updateJsonFileStore]
  refine among_bind _ hthrows
    (among_orThrow (among_perform (stable_waits attempts) h id fun _ _ => rfl)) ?_
  intro _ current _ hcurrent
  refine among_bind _ hthrows (among_acquireLock hcurrent) ?_
  rintro token now - ⟨left, rfl, hheld, hpending⟩
  have hmodify : Among pidOf update initial task (modifyStore (update task)) _ _ now :=
    among_modifyStore rfl hheld hpending
  refine among_runWithOwnedLock (fun result => lasting_made result) lasting_true
    (fun _ _ _ => trivial) rfl rfl ?_
  exact hmodify.imp (fun _ _ _ h => h) fun _ _ _ h => ⟨trivial, h⟩

end Rules

/-! ## All tasks -/

/-- The tasks before their first call: whichever locks were left behind, each will update the
store once, in its own process. -/
structure Starts (pidOf : ℕ → ℕ) (attempts : ℕ → ℕ) (update : ℕ → V → Except ε (V × ρ)) (initial : V)
    (world : Team.World ℕ (LockCall V ρ) (LockAnswer V ε) (Disk V ρ) (Except (LockError ε) ρ)) :
    Prop where
  value : world.state.value = initial
  commits : world.state.commits = []
  known : ∀ pid path, world.state.known pid path = none
  forsaken : world.state.forsaken = []
  owner : ∀ path metadata, world.state.files path = some (some metadata) →
    metadata.pid = pidOf metadata.token.task ∧ metadata.token.path = path
  recoverer : ∀ metadata, world.state.files .recovery = some (some metadata) →
    metadata.pid ∉ world.state.dead
  rest : ∀ task, world.rest task =
    (updateJsonFileStore task (pidOf task) (attempts task) (update task)).run

/-- What the lock is for: the updates were made one after another, each once and each on
what the one before it left; those that were told to have been made are among them; and no
two running tasks turn to the store at a time. -/
structure Serialized (pidOf : ℕ → ℕ) (update : ℕ → V → Except ε (V × ρ)) (initial : V)
    (world : Team.World ℕ (LockCall V ρ) (LockAnswer V ε) (Disk V ρ) (Except (LockError ε) ρ)) :
    Prop where
  chain : Chain update initial world.state.commits world.state.value
  once : (world.state.commits.map Prod.fst).Nodup
  told : ∀ task result, world.rest task = .done (.ok result) → (task, result) ∈ world.state.commits
  alone : ∀ {task other call otherCall next otherNext}, world.rest task = .call call next →
    world.rest other = .call otherCall otherNext → call.accessesStore → otherCall.accessesStore →
      pidOf task ∉ world.state.dead → pidOf other ∉ world.state.dead → task = other

variable {attempts : ℕ → ℕ}
  {start world : Team.World ℕ (LockCall V ρ) (LockAnswer V ε) (Disk V ρ) (Except (LockError ε) ρ)}

/-- What a task that returned has been told. -/
def Told (task : ℕ) (outcome : Except (LockError ε) ρ) (disk : Disk V ρ) : Prop :=
  Fallible.ends (Made task) (fun _ _ => True) outcome disk

theorem Starts.sound (h : Starts pidOf attempts update initial start) :
    (team pidOf update initial).Sound Told start where
  invariant := by
    refine ⟨h.owner, fun metadata hfile => ?_, fun pid path token hknown => ?_, ?_, ?_⟩
    · rintro (hdead | hforsaken)
      · exact h.recoverer metadata hfile hdead
      · rw [h.forsaken] at hforsaken
        cases hforsaken
    · cases (h.known pid path).symm.trans hknown
    · rw [h.value, h.commits]
      exact .nil
    · rw [h.commits]
      exact List.nodup_nil
  safe task _ := by
    rw [h.rest task]
    refine among_updateJsonFileStore ⟨fun token _ _ => ?_, fun result => ?_⟩
    · rw [h.forsaken]
      exact List.not_mem_nil
    · rw [h.commits]
      exact List.not_mem_nil

theorem mem_commits_effect {disk : Disk V ρ} {task pid : ℕ} {move : LockMove ε}
    {call : LockCall V ρ} {commit : ℕ × ρ} (h : commit ∈ disk.commits) :
    commit ∈ (effect task pid disk move call).commits := by
  cases call with
  | link path metadata => rw [effect]; split <;> exact h
  | unlink path => rw [effect]; split <;> exact h
  | renameStore value result =>
      rw [effect]
      split
      · exact List.mem_append_left _ h
      · exact h
  | _ => exact h

theorem Told.imp {before after : Disk V ρ} {outcome : Except (LockError ε) ρ}
    (hmem : ∀ commit ∈ before.commits, commit ∈ after.commits) (h : Told task outcome before) :
    Told task outcome after := by
  cases outcome with
  | ok result => exact hmem _ h
  | error error => trivial

/-- Whatever the order of the steps, and whoever fails or dies in between: the updates of
a store are serialized. -/
theorem updates_serialized (hstart : Starts pidOf attempts update initial start)
    {labels : List (Option ℕ)} (hrun : Run (team pidOf update initial).Step start labels world) :
    Serialized pidOf update initial world := by
  have hsound := hstart.sound.run lawful_team hrun
  refine ⟨hsound.invariant.chain, hsound.invariant.once, fun task result hrest => ?_, ?_⟩
  · refine hstart.sound.returned lawful_team hrun ?_ ?_ (fun i outcome hdone => ?_) hrest
    · exact fun _ _ _ _ _ _ hbefore => hbefore.imp fun _ hmem => mem_commits_effect hmem
    · rintro before after other outcome ⟨pid, rfl, -⟩ hbefore
      refine hbefore.imp ?_
      exact fun _ hmem => hmem
    · cases (hstart.rest i).symm.trans hdone
  · intro task other call otherCall next otherNext hrest hother hcall hotherCall hlive hotherLive
    obtain ⟨metadata, rfl, hfile⟩ := hsound.entitled lawful_team hlive hrest hcall
    obtain ⟨_, rfl, hsame⟩ := hsound.entitled lawful_team hotherLive hother hotherCall
    rw [Option.some.inj (Option.some.inj (hfile.symm.trans hsame))]

/-- The next call of a task, which does not fail. -/
def advance (pidOf : ℕ → ℕ)
    (world : Team.World ℕ (LockCall V ρ) (LockAnswer V ε) (Disk V ρ) (Except (LockError ε) ρ))
    (task : ℕ) :
    Team.World ℕ (LockCall V ρ) (LockAnswer V ε) (Disk V ρ) (Except (LockError ε) ρ) :=
  match world.rest task with
  | .done _ => world
  | .call call next =>
      let move : LockMove ε := {}
      ⟨effect task (pidOf task) world.state move call, Function.update world.rest task
        (next (answer (pidOf task) world.state move call))⟩

theorem dead_effect {disk : Disk V ρ} {task pid : ℕ} {move : LockMove ε} {call : LockCall V ρ} :
    (effect task pid disk move call).dead = disk.dead := by
  cases call with
  | link path metadata => rw [effect]; split <;> rfl
  | unlink path => rw [effect]; split <;> rfl
  | renameStore value result => rw [effect]; split <;> rfl
  | _ => rfl

theorem exists_run_advance {schedule : List ℕ}
    (hlive : ∀ task ∈ schedule, pidOf task ∉ world.state.dead) :
    ∃ labels, Run (team pidOf update initial).Step world labels
      (schedule.foldl (advance pidOf) world) := by
  induction schedule generalizing world with
  | nil => exact ⟨[], .refl world⟩
  | cons task schedule ih =>
      rw [List.foldl_cons]
      have hhead := hlive task List.mem_cons_self
      have htail := fun other hother => hlive other (List.mem_cons_of_mem task hother)
      cases hrest : world.rest task with
      | done outcome =>
          rw [advance, hrest]
          exact ih htail
      | call call next =>
          have hstep : (team pidOf update initial).Step world (some task)
              (advance pidOf world task) := by
            rw [advance, hrest]
            exact .call hhead hrest ({} : LockMove ε) fun _ => rfl
          have hdead : (advance pidOf world task).state.dead = world.state.dead := by
            rw [advance, hrest]
            exact dead_effect
          rw [← hdead] at htail
          obtain ⟨labels, hrun⟩ := ih htail
          exact ⟨some task :: labels, hrun.cons hstep⟩

end Team

/-- Counting up, and giving the number that was there. -/
def increment (_ : ℕ) (value : ℕ) : Except Unit (ℕ × ℕ) := .ok (value + 1, value)

/-- Two tasks that count, with a lock that a dead process has left. -/
def leftLock : Team.World ℕ (LockCall ℕ ℕ) (LockAnswer ℕ Unit) (Disk ℕ ℕ)
    (Except (LockError Unit) ℕ) where
  state :=
    { files := fun path => if path = .lock then some (some ⟨⟨7, .lock, 0⟩, 7⟩) else none
      value := 0
      dead := [7]
      known := fun _ _ => none
      forsaken := []
      commits := [] }
  rest task := (updateJsonFileStore task task 5 (increment task)).run

theorem starts_leftLock : Starts id (fun _ => 5) increment 0 leftLock where
  value := rfl
  commits := rfl
  known _ _ := rfl
  forsaken := rfl
  owner path metadata h := by
    cases path with
    | lock =>
        cases h
        exact ⟨rfl, rfl⟩
    | recovery => cases h
  recoverer metadata h := by cases h
  rest _ := rfl

/-- Both find the lock of the dead process, and one of them removes it. -/
theorem updates_serialized_leftLock : ∃ labels world,
    Run (team id increment 0).Step leftLock labels world ∧
      world.state.commits = [(1, 0), (0, 1)] ∧ Serialized id increment 0 world := by
  have hlive : ∀ task ∈ (List.replicate 40 [0, 1]).flatten, id task ∉ leftLock.state.dead := by decide
  obtain ⟨labels, hrun⟩ := exists_run_advance hlive
  exact ⟨labels, _, hrun, by decide +kernel, updates_serialized starts_leftLock hrun⟩

end ListmonkOps.Runtime.FileLock
