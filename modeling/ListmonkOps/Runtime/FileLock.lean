/-
The lock of a JSON file store.

A lock is a file that is linked into place and unlinked again. A process that dies leaves its
lock behind; whoever finds the owner dead removes the lock, under a second lock, the
recovery file. Each check and what follows from it are steps of their own, and the tasks of
any number of processes take theirs in any order. Locks of other hosts are never removed,
and tokens never repeat. The temporary files have a token in their name and are nobody
else's; of the write of the store only the rename is visible.
-/

import ListmonkOps.Math.Interference

namespace ListmonkOps.Runtime.FileLock

open ListmonkOps.Math

/-! ## Files -/

/-- The file `.lock` of a store, and the file `.lock.recovery`. -/
inductive LockPath where
  | lock
  | recovery
  deriving DecidableEq

/-- A random token, by what makes it one of its own: the task that draws it, for which file
and with how many attempts left. -/
structure LockToken where
  task : ℕ
  path : LockPath
  left : ℕ
  deriving DecidableEq

/-- What a process writes into a lock. -/
structure LockMetadata where
  token : LockToken
  pid : ℕ
  deriving DecidableEq

/-- The files of a store and the processes of its host, with the `knownAbandonedLockTokens`
of each. A lock may hold anything else than metadata of this host. Two fields are marks of
what has happened: the tokens whose release failed, and the updates in the order in which
their files were renamed. -/
structure Disk (V ρ : Type) where
  files : LockPath → Option (Option LockMetadata)
  value : V
  dead : List ℕ
  known : ℕ → LockPath → Option LockToken
  forsaken : List LockToken
  commits : List (ℕ × ρ)

/-! ## Requests -/

/-- What a task asks of the file system, of its process and of the clock. -/
inductive LockCall (V ρ : Type) where
  | mkdir
  | writeTemporary (token : LockToken)
  | link (path : LockPath) (metadata : LockMetadata)
  | unlinkTemporary (token : LockToken)
  | readFile (path : LockPath)
  | unlink (path : LockPath)
  | isProcessAlive (pid : ℕ)
  | getKnown (path : LockPath)
  | setKnown (path : LockPath) (token : LockToken)
  | deleteKnown (path : LockPath)
  | readStore
  | /-- The rename of the new file, marked with the result of the update. -/
    renameStore (value : V) (result : ρ)
  | expired
  | delay

inductive LockError (ε : Type) where
  | thrown (error : ε)
  | timeout
  deriving DecidableEq

/-- What a call gives, by its kind. -/
structure LockAnswer (V ε : Type) where
  done : Except (LockError ε) Unit
  linked : Except (LockError ε) Bool
  content : Except (LockError ε) (Option (Option LockMetadata))
  value : Except (LockError ε) V
  known : Option LockToken
  flag : Bool

/-- What becomes of a call: whether it fails, whether it is performed even so, and what the
clock says. -/
structure LockMove (ε : Type) where
  failure : Option ε := none
  performed : Bool := true
  flag : Bool := false

abbrev LockProgram (V ρ ε α : Type) := Fallible (LockCall V ρ) (LockAnswer V ε) (LockError ε) α

variable {V ρ ε α : Type}

def perform (call : LockCall V ρ) : LockProgram V ρ ε Unit := Fallible.ask call (·.done)

def readFile (path : LockPath) : LockProgram V ρ ε (Option (Option LockMetadata)) :=
  Fallible.ask (.readFile path) (·.content)

def isProcessAlive (pid : ℕ) : LockProgram V ρ ε Bool :=
  Fallible.ask (.isProcessAlive pid) fun answer => .ok answer.flag

/-- Whether `Date.now() >= deadline`. -/
def expired : LockProgram V ρ ε Bool := Fallible.ask .expired fun answer => .ok answer.flag

def getKnown (path : LockPath) : LockProgram V ρ ε (Option LockToken) :=
  Fallible.ask (.getKnown path) fun answer => .ok answer.known

/-- Run a block and catch what it throws. -/
def attempt (block : LockProgram V ρ ε α) : LockProgram V ρ ε (Except (LockError ε) α) :=
  ExceptT.lift block.run

/-! ## The lock -/

def createLockFile (path : LockPath) (metadata : LockMetadata) : LockProgram V ρ ε Bool := do
  let operation ← attempt do
    perform (.writeTemporary metadata.token)
    Fallible.ask (.link path metadata) (·.linked)
  let cleanup ← attempt (perform (.unlinkTemporary metadata.token))
  match operation, cleanup with
  | .error error, _ => throw error
  | .ok true, _ => do
      perform (.deleteKnown path)
      pure true
  | .ok false, .error error => throw error
  | .ok false, .ok () => pure false

/-- `removeDeadOwnerFile`, once the owner is known to be gone. -/
def removeAfterRecheck (path : LockPath) (token : LockToken) (isKnownAbandoned : Bool) :
    LockProgram V ρ ε Bool := do
  let content ← readFile path
  match content with
  | none => pure true
  | some current =>
      if current.map (·.token) = some token then do
        perform (.unlink path)
        if isKnownAbandoned then perform (.deleteKnown path)
        pure true
      else do
        if isKnownAbandoned then perform (.deleteKnown path)
        pure false

def removeDeadOwnerFile (path : LockPath) : LockProgram V ρ ε Bool := do
  let content ← readFile path
  match content with
  | none => pure true
  | some none => pure false
  | some (some metadata) => do
      let knownAbandonedToken ← getKnown path
      if knownAbandonedToken = some metadata.token then
        removeAfterRecheck path metadata.token true
      else do
        let alive ← isProcessAlive metadata.pid
        if alive then pure false else removeAfterRecheck path metadata.token false

def releaseLock (path : LockPath) (token : LockToken) : LockProgram V ρ ε Unit := do
  let content ← readFile path
  match content with
  | none => pure ()
  | some metadata =>
      if metadata.map (·.token) = some token then perform (.unlink path) else pure ()

def runWithOwnedLock (path : LockPath) (token : LockToken) (action : LockProgram V ρ ε α) :
    LockProgram V ρ ε α := do
  let outcome ← attempt action
  let release ← attempt do
    releaseLock path token
    let known ← getKnown path
    if known = some token then perform (.deleteKnown path)
  match release with
  | .ok () => liftM outcome
  | .error releaseError => do
      perform (.setKnown path token)
      match outcome with
      | .ok _ => throw releaseError
      | .error error => throw error

section Task

variable (task pid : ℕ)

/-- `createLockMetadata`, with so many attempts left. -/
def createLockMetadata (path : LockPath) (left : ℕ) : LockMetadata := ⟨⟨task, path, left⟩, pid⟩

def removeAbandonedLock (left : ℕ) : LockProgram V ρ ε Bool := do
  let created ← createLockFile .recovery (createLockMetadata task pid .recovery left)
  if created then
    runWithOwnedLock .recovery (createLockMetadata task pid .recovery left).token
      (removeDeadOwnerFile .lock)
  else do
    let _ ← removeDeadOwnerFile .recovery
    pure false

/-- The loop of `acquireLock`, which ends before so many attempts are over. -/
def acquireLock : ℕ → LockProgram V ρ ε LockToken
  | 0 => throw .timeout
  | left + 1 => do
      let created ← createLockFile .lock (createLockMetadata task pid .lock left)
      if created then pure (createLockMetadata task pid .lock left).token
      else do
        let removed ← removeAbandonedLock task pid left
        let late ← expired
        if late then throw .timeout
        else do
          if !removed then perform .delay
          acquireLock left

/-- What `updateJsonFileStore` does with the lock, by what the update makes of the file: what is
written, and the result. -/
def modifyStore (update : V → Except ε (V × ρ)) : LockProgram V ρ ε ρ := do
  let value ← Fallible.ask .readStore (·.value)
  let next ← (liftM ((update value).mapError LockError.thrown) : LockProgram V ρ ε (V × ρ))
  perform (.renameStore next.1 next.2)
  pure next.2

def updateJsonFileStore (attempts : ℕ) (update : V → Except ε (V × ρ)) : LockProgram V ρ ε ρ := do
  perform .mkdir
  let token ← acquireLock task pid attempts
  runWithOwnedLock .lock token (modifyStore update)

end Task

/-! ## The host -/

def Disk.setFile (disk : Disk V ρ) (path : LockPath) (content : Option (Option LockMetadata)) :
    Disk V ρ :=
  { disk with files := Function.update disk.files path content }

/-- Change what a process knows of the abandoned locks. -/
def Disk.setKnown (disk : Disk V ρ) (pid : ℕ) (path : LockPath) (token : Option LockToken) :
    Disk V ρ :=
  { disk with known := Function.update disk.known pid (Function.update (disk.known pid) path token) }

def Disk.forsake (disk : Disk V ρ) (token : LockToken) : Disk V ρ :=
  { disk with forsaken := token :: disk.forsaken }

/-- Rename the file that an update wrote. -/
def Disk.commit (disk : Disk V ρ) (task : ℕ) (value : V) (result : ρ) : Disk V ρ :=
  { disk with
    value := value
    commits := disk.commits ++ [(task, result)] }

def LockMove.report {β : Type} (move : LockMove ε) (value : β) : Except (LockError ε) β :=
  match move.failure with
  | none => .ok value
  | some error => .error (.thrown error)

def LockMove.occurs (move : LockMove ε) : Bool := move.failure.isNone || move.performed

def effect (task pid : ℕ) (disk : Disk V ρ) (move : LockMove ε) : LockCall V ρ → Disk V ρ
  | .link path metadata =>
      if disk.files path = none ∧ move.occurs then disk.setFile path (some (some metadata)) else disk
  | .unlink path => if move.occurs then disk.setFile path none else disk
  | .setKnown path token => (disk.setKnown pid path (some token)).forsake token
  | .deleteKnown path => disk.setKnown pid path none
  | .renameStore value result => if move.occurs then disk.commit task value result else disk
  | _ => disk

/-- The answer to a call. What stays inside the process does not fail. -/
def answer (pid : ℕ) (disk : Disk V ρ) (move : LockMove ε) (call : LockCall V ρ) :
    LockAnswer V ε where
  done :=
    match call with
    | .setKnown _ _ | .deleteKnown _ => .ok ()
    | _ => move.report ()
  linked :=
    match call with
    | .link path _ => move.report (disk.files path = none)
    | _ => .ok false
  content :=
    match call with
    | .readFile path => move.report (disk.files path)
    | _ => .ok none
  value := move.report disk.value
  known :=
    match call with
    | .getKnown path => disk.known pid path
    | _ => none
  flag :=
    match call with
    | .isProcessAlive other => other ∉ disk.dead
    | _ => move.flag

/-- An owner that will not remove its lock: its process is dead, or its release failed. -/
def Gone (disk : Disk V ρ) (metadata : LockMetadata) : Prop :=
  metadata.pid ∈ disk.dead ∨ metadata.token ∈ disk.forsaken

section Team

variable (pidOf : ℕ → ℕ) (update : ℕ → V → Except ε (V × ρ)) (initial : V)

/-- Updates that were applied one after another, each to what the one before it had left. -/
inductive Chain : List (ℕ × ρ) → V → Prop
  | nil : Chain [] initial
  | snoc {commits : List (ℕ × ρ)} {value next : V} {task : ℕ} {result : ρ}
      (before : Chain commits value) (happly : update task value = .ok (next, result)) :
      Chain (commits ++ [(task, result)]) next

/-- What holds of the disk all along: locks say whose they are, the value is what the committed
updates make of the first one, and no task has committed twice. -/
structure Invariant (disk : Disk V ρ) : Prop where
  owner : ∀ path metadata, disk.files path = some (some metadata) →
    metadata.pid = pidOf metadata.token.task ∧ metadata.token.path = path
  recoverer : ∀ metadata, disk.files .recovery = some (some metadata) → ¬ Gone disk metadata
  known : ∀ pid path token, disk.known pid path = some token → token ∈ disk.forsaken
  chain : Chain update initial disk.commits disk.value
  once : (disk.commits.map Prod.fst).Nodup

/-- What a task counts on: its locks stay, its recovery keeps a deserted lock from changing,
and with its lock nobody else writes the store. -/
structure Rely (task : ℕ) (before after : Disk V ρ) : Prop where
  mine : ∀ path metadata, metadata.token.task = task → metadata.token ∉ before.forsaken →
    before.files path = some (some metadata) → after.files path = some (some metadata)
  forsaken : ∀ token : LockToken, token.task = task →
    (token ∈ after.forsaken ↔ token ∈ before.forsaken)
  gone : ∀ metadata, Gone before metadata → Gone after metadata
  deserted : ∀ recovery metadata, recovery.token.task = task →
    recovery.token ∉ before.forsaken → before.files .recovery = some (some recovery) →
      before.files .lock = some (some metadata) → Gone before metadata →
        after.files .lock = some (some metadata)
  value : ∀ metadata, metadata.token.task = task → metadata.token ∉ before.forsaken →
    before.files .lock = some (some metadata) → after.value = before.value
  commits : ∀ result, (task, result) ∈ after.commits ↔ (task, result) ∈ before.commits

/-- What a task may remove: its own lock, and a deserted one under its recovery. -/
def Removable (task : ℕ) (disk : Disk V ρ) (path : LockPath) (metadata : LockMetadata) : Prop :=
  (metadata.token.task = task ∧ metadata.token ∉ disk.forsaken) ∨
    (path = .lock ∧ Gone disk metadata ∧
      ∃ recovery, recovery.token.task = task ∧ disk.files .recovery = some (some recovery))

/-- What a step of a task promises the others: it removes no lock but its own or a deserted one,
and it changes the store only under its own lock. -/
structure Guarantee (task : ℕ) (before after : Disk V ρ) : Prop where
  dead : after.dead = before.dead
  files : ∀ path metadata, before.files path = some (some metadata) →
    after.files path = some (some metadata) ∨ Removable task before path metadata
  forsaken : ∀ token, token ∈ after.forsaken ↔
    token ∈ before.forsaken ∨ (token ∈ after.forsaken ∧ token.task = task)
  store : (after.value = before.value ∧ after.commits = before.commits) ∨
    ∃ metadata result, metadata.token.task = task ∧
      before.files .lock = some (some metadata) ∧ after.commits = before.commits ++ [(task, result)]

/-- Whether a call is to the file of the store. -/
def LockCall.accessesStore : LockCall V ρ → Prop
  | .readStore | .renameStore _ _ => True
  | _ => False

/-- The lock that is there is one of the task. -/
def Owns (task : ℕ) (disk : Disk V ρ) : Prop :=
  ∃ metadata, metadata.token.task = task ∧ disk.files .lock = some (some metadata)

/-- The tasks of a host. Only with its lock may a task turn to the store. No request fails that
reads or removes the recovery file, and no process dies that holds it. -/
def team : Team ℕ (LockCall V ρ) (LockAnswer V ε) (Disk V ρ) (LockMove ε) where
  serve task disk call move :=
    (answer (pidOf task) disk move call, effect task (pidOf task) disk move call)
  allowed _ call move :=
    call = .readFile .recovery ∨ call = .unlink .recovery → move.failure = none
  entitled task call disk := call.accessesStore → Owns task disk
  invariant := Invariant pidOf update initial
  rely := Rely
  guarantee := Guarantee
  live task disk := pidOf task ∉ disk.dead
  around before after := ∃ pid, after = { before with dead := pid :: before.dead } ∧
    ∀ metadata, before.files .recovery = some (some metadata) → metadata.pid ≠ pid

variable {pidOf update initial} {task : ℕ} {before after : Disk V ρ}

theorem Rely.refl (task : ℕ) (disk : Disk V ρ) : Rely task disk disk where
  mine _ _ _ _ h := h
  forsaken _ _ := Iff.rfl
  gone _ h := h
  deserted _ _ _ _ _ h _ := h
  value _ _ _ _ := rfl
  commits _ := Iff.rfl

theorem Rely.trans {middle : Disk V ρ} (h : Rely task before middle) (h' : Rely task middle after) :
    Rely task before after where
  mine path metadata htask hkept hfile :=
    h'.mine path metadata htask (fun hmem => hkept ((h.forsaken _ htask).mp hmem))
      (h.mine path metadata htask hkept hfile)
  forsaken token htask := (h'.forsaken token htask).trans (h.forsaken token htask)
  gone metadata hgone := h'.gone metadata (h.gone metadata hgone)
  deserted recovery metadata htask hkept hrecovery hlock hgone :=
    h'.deserted recovery metadata htask (fun hmem => hkept ((h.forsaken _ htask).mp hmem))
      (h.mine _ _ htask hkept hrecovery)
      (h.deserted recovery metadata htask hkept hrecovery hlock hgone) (h.gone metadata hgone)
  value metadata htask hkept hlock :=
    (h'.value metadata htask (fun hmem => hkept ((h.forsaken _ htask).mp hmem))
      (h.mine _ _ htask hkept hlock)).trans (h.value metadata htask hkept hlock)
  commits result := (h'.commits result).trans (h.commits result)

theorem Guarantee.rely {other : ℕ} (hne : task ≠ other)
    (hinv : Invariant pidOf update initial before) (hlive : pidOf task ∉ before.dead)
    (hother : pidOf other ∉ before.dead) (h : Guarantee task before after) :
    Rely other before after where
  mine path metadata htask hkept hfile := by
    rcases h.files path metadata hfile with hstays | ⟨hown, -⟩ | ⟨-, hgone | hgone, -⟩
    · exact hstays
    · exact absurd (hown.symm.trans htask) hne
    · rw [(hinv.owner path metadata hfile).1, htask] at hgone
      exact absurd hgone hother
    · exact absurd hgone hkept
  forsaken token htask := by
    rw [h.forsaken token]
    exact or_iff_left fun hmem => hne (hmem.2.symm.trans htask)
  gone metadata hgone := by
    rcases hgone with hdead | hforsaken
    · exact .inl (h.dead ▸ hdead)
    · exact .inr ((h.forsaken _).mpr (.inl hforsaken))
  deserted recovery metadata htask _ hrecovery hlock hgone := by
    rcases h.files .lock metadata hlock with hstays | ⟨hown, hkept⟩ | ⟨-, -, mine, hmine, hfile⟩
    · exact hstays
    · rcases hgone with hdead | hforsaken
      · rw [(hinv.owner _ _ hlock).1, hown] at hdead
        exact absurd hdead hlive
      · exact absurd hforsaken hkept
    · obtain rfl := Option.some.inj (Option.some.inj (hfile.symm.trans hrecovery))
      exact absurd (hmine.symm.trans htask) hne
  value metadata htask _ hlock := by
    rcases h.store with ⟨hvalue, -⟩ | ⟨mine, result, hmine, hfile, -⟩
    · exact hvalue
    · obtain rfl := Option.some.inj (Option.some.inj (hfile.symm.trans hlock))
      exact absurd (hmine.symm.trans htask) hne
  commits result := by
    rcases h.store with ⟨-, hcommits⟩ | ⟨mine, own, -, -, hcommits⟩
    · rw [hcommits]
    · rw [hcommits, List.mem_append, List.mem_singleton]
      exact or_iff_left fun hsame => hne (Prod.mk.inj hsame).1.symm

theorem lawful_team : (team pidOf update initial).Lawful where
  refl := Rely.refl
  trans := Rely.trans
  lives hguarantee hlive := fun hdead => hlive (hguarantee.dead ▸ hdead)
  covers hne hinv hlive hother hguarantee := hguarantee.rely hne hinv hlive hother
  around := by
    rintro before after hinv ⟨pid, rfl, hspared⟩
    have hgone : ∀ metadata, Gone before metadata →
        Gone { before with dead := pid :: before.dead } metadata :=
      fun metadata h => h.imp_left (List.mem_cons_of_mem _)
    refine ⟨⟨hinv.owner, fun metadata hfile => ?_, hinv.known, hinv.chain, hinv.once⟩, ?_⟩
    · rintro (hdead | hforsaken)
      · rcases List.mem_cons.mp hdead with hpid | hdead
        · exact hspared metadata hfile hpid
        · exact hinv.recoverer metadata hfile (.inl hdead)
      · exact hinv.recoverer metadata hfile (.inr hforsaken)
    · intro other hlive
      refine ⟨fun hdead => hlive (List.mem_cons_of_mem _ hdead), ?_⟩
      exact ⟨fun _ _ _ _ h => h, fun _ _ => Iff.rfl, hgone, fun _ _ _ _ _ h _ => h,
        fun _ _ _ _ => rfl, fun _ => Iff.rfl⟩

end Team

end ListmonkOps.Runtime.FileLock
