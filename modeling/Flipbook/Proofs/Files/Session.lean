import Flipbook.Files.FileTree
import Flipbook.Proofs.Outcome

namespace Flipbook

/-- Actions on a file tree, with a state of the caller's own beside it. -/
abbrev Session (σ : Type) := StateT σ (StateM FileTree)

structure World (σ : Type) where
  state : σ
  tree : FileTree

variable {σ ε ε' α β : Type}

def finish (action : ExceptT ε (Session σ) α) (world : World σ) : Except ε α × World σ :=
  let ((outcome, state), tree) := (action.run.run world.state).run world.tree
  (outcome, ⟨state, tree⟩)

@[simp] theorem finish_pure (value : α) (world : World σ) :
    finish (pure value : ExceptT ε (Session σ) α) world = (.ok value, world) := rfl

@[simp] theorem finish_mk (outcome : Except ε α) (world : World σ) :
    finish (ExceptT.mk (pure outcome) : ExceptT ε (Session σ) α) world = (outcome, world) := rfl

theorem finish_bind (action : ExceptT ε (Session σ) α) (next : α → ExceptT ε (Session σ) β) (world : World σ) :
    finish (action >>= next) world = match finish action world with
      | (.ok value, between) => finish (next value) between
      | (.error e, between) => (.error e, between) := by
  unfold finish
  rw [ExceptT.run_bind, StateT.run_bind, StateT.run_bind]
  cases (action.run.run world.state).run world.tree with
  | mk result tree =>
    obtain ⟨outcome, state⟩ := result
    cases outcome <;> rfl

theorem finish_bind_ok {action : ExceptT ε (Session σ) α} {next : α → ExceptT ε (Session σ) β} {world after : World σ}
    {result : β} (ended : finish (action >>= next) world = (.ok result, after)) :
    ∃ value between, finish action world = (.ok value, between) ∧
      finish (next value) between = (.ok result, after) := by
  rw [finish_bind] at ended
  split at ended
  · rename_i value between first
    exact ⟨value, between, first, ended⟩
  · cases ended

theorem finish_bind_error {action : ExceptT ε (Session σ) α} {next : α → ExceptT ε (Session σ) β}
    {world after : World σ} {e : ε} :
    finish (action >>= next) world = (.error e, after) ↔ finish action world = (.error e, after) ∨
      ∃ value between, finish action world = (.ok value, between) ∧
        finish (next value) between = (.error e, after) := by
  rw [finish_bind]
  obtain ⟨outcome, between⟩ := finish action world
  cases outcome <;> simp

theorem finish_silent (next : Unit → ExceptT ε (Session σ) β) (world : World σ) :
    finish (liftM (pure () : Session σ Unit) >>= next) world = finish (next ()) world := by
  rw [finish_bind]
  rfl

theorem finish_adapt (f : ε → ε') (action : ExceptT ε (Session σ) α) (world : World σ) :
    finish (ExceptT.adapt f action) world = ((finish action world).1.mapError f, (finish action world).2) := by
  unfold finish ExceptT.adapt
  rw [ExceptT.run_mk, StateT.run_map, StateT.run_map]
  rfl

theorem finish_adapt_error {f : ε → ε'} {action : ExceptT ε (Session σ) α} {world after : World σ} {e' : ε'} :
    finish (ExceptT.adapt f action) world = (.error e', after) ↔
      ∃ e, finish action world = (.error e, after) ∧ f e = e' := by
  rw [finish_adapt]
  obtain ⟨outcome, between⟩ := finish action world
  cases outcome with
  | ok value => simp [Except.mapError]
  | error e =>
    simp only [Except.mapError, Prod.mk.injEq, Except.error.injEq]
    constructor
    · rintro ⟨same, rfl⟩
      exact ⟨e, ⟨rfl, rfl⟩, same⟩
    · rintro ⟨_, ⟨rfl, rfl⟩, same⟩
      exact ⟨same, rfl⟩

theorem finish_adapt_ok {f : ε → ε'} {action : ExceptT ε (Session σ) α} {world after : World σ} {value : α} :
    finish (ExceptT.adapt f action) world = (.ok value, after) ↔ finish action world = (.ok value, after) := by
  rw [finish_adapt]
  obtain ⟨outcome, between⟩ := finish action world
  cases outcome <;> simp [Except.mapError]

theorem finish_tryCatch (action : ExceptT ε (Session σ) α) (rescue : ε → ExceptT ε (Session σ) α)
    (world : World σ) :
    finish (tryCatch action rescue) world = match finish action world with
      | (.ok value, between) => (.ok value, between)
      | (.error e, between) => finish (rescue e) between := by
  unfold finish
  change (match ((action.run >>= fun outcome => match outcome with
      | .ok value => pure (.ok value)
      | .error e => (rescue e).run).run world.state).run world.tree with
    | ((outcome, state), tree) => (outcome, World.mk state tree)) = _
  rw [StateT.run_bind, StateT.run_bind]
  cases (action.run.run world.state).run world.tree with
  | mk result tree =>
    obtain ⟨outcome, state⟩ := result
    cases outcome <;> rfl

section tree

variable (path : Path) (world : World σ)

@[simp] theorem finish_kind :
    finish (FileSystem.kind path : ExceptT FileError (Session σ) FileKind) world =
      ((world.tree.kind path).mapError fun problem => ⟨problem, path⟩, world) := rfl

@[simp] theorem finish_read :
    finish (FileSystem.read path : ExceptT FileError (Session σ) Text.Bytes) world =
      ((world.tree.read path).mapError fun problem => ⟨problem, path⟩, world) := rfl

@[simp] theorem finish_size :
    finish (FileSystem.size path : ExceptT FileError (Session σ) Nat) world =
      ((world.tree.size path).mapError fun problem => ⟨problem, path⟩, world) := rfl

def changed (world : World σ) (path : Path) (change : Except FileProblem FileTree) : Except FileError Unit × World σ :=
  match change with
  | .ok tree => (.ok (), ⟨world.state, tree⟩)
  | .error problem => (.error ⟨problem, path⟩, world)

theorem finish_change (change : FileTree → Except FileProblem FileTree) :
    finish (ExceptT.mk (StateT.lift (FileTree.change path change).run) : ExceptT FileError (Session σ) Unit) world =
      changed world path (change world.tree) := by
  have unfolded : finish (ExceptT.mk (StateT.lift (FileTree.change path change).run)) world =
      let (outcome, tree) := (FileTree.change path change).run world.tree
      (outcome, World.mk world.state tree) := rfl
  rw [unfolded]
  unfold changed FileTree.change
  change (let (outcome, tree) := match change world.tree with
    | .ok tree => (Except.ok (), tree)
    | .error problem => (Except.error (FileError.mk problem path), world.tree)
    (outcome, World.mk world.state tree)) = _
  cases change world.tree <;> rfl

@[simp] theorem finish_makeDirectory :
    finish (FileSystem.makeDirectory path : ExceptT FileError (Session σ) Unit) world =
      changed world path (world.tree.makeDirectory path) := finish_change path world fun tree => tree.makeDirectory path

@[simp] theorem finish_write (content : Text.Bytes) :
    finish (FileSystem.write path content : ExceptT FileError (Session σ) Unit) world =
      changed world path (world.tree.write path content) := finish_change path world fun tree => tree.write path content

end tree

@[simp] theorem finish_is (wanted : FileKind) (path : Path) (world : World σ) :
    finish (FileSystem.is wanted path : ExceptT FileError (Session σ) Bool) world =
      (match world.tree.kind path with
        | .ok kind => .ok (kind = wanted)
        | .error problem => if problem.isAbsence then .ok false else .error ⟨problem, path⟩, world) := by
  unfold FileSystem.is
  rw [finish_tryCatch, finish_bind, finish_kind]
  cases world.tree.kind path with
  | ok kind => rfl
  | error problem =>
    simp only [Except.mapError]
    split <;> rfl

def Quiet (action : Session σ Unit) : Prop :=
  ∀ state tree, ((action.run state).run tree).2 = tree

theorem Quiet.finish_lift {action : Session σ Unit} (quiet : Quiet action) (world : World σ) :
    ∃ state, finish (liftM action : ExceptT ε (Session σ) Unit) world = (.ok (), ⟨state, world.tree⟩) := by
  have unfolded : finish (liftM action : ExceptT ε (Session σ) Unit) world =
      (.ok (), ⟨((action.run world.state).run world.tree).1.2, ((action.run world.state).run world.tree).2⟩) := rfl
  rw [unfolded, quiet]
  exact ⟨_, rfl⟩

end Flipbook
