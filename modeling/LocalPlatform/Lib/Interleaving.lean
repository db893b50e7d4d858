import LocalPlatform.Lib.Machine
import Mathlib.Data.List.Perm.Subperm

/-!
# Calls that run at the same time

Several calls work on one database.  A call is a list of tasks, a task is one
transaction together with what the call computes from it, and the tasks of
different calls come in any order.

* `World` is the database and the tasks that each call has left.  `worldMachine`
  starts a call, or lets one of the calls run its next task.
* `World.Keeps.next` is the induction step for a property of the database and of the
  tasks that are left.
-/

namespace LocalPlatform.Interleavings

open Machines

variable {σ τ κ : Type}

/-! ## Worlds -/

/-- A task gives the database after it and the tasks that replace it, or no tasks
if the call raises. -/
abbrev TaskStep (σ τ : Type) := τ → σ → σ × Option (List τ)

/-- The database, and the tasks that each call has left. -/
structure World (σ τ : Type) where
  db : σ
  calls : List (List τ)

/-- A call starts, or one of the calls runs its next task. -/
inductive WorldAction (κ : Type) where
  | start (call : κ)
  | run (index : Nat)

def World.task (world : World σ τ) (index : Nat) : Option τ :=
  (world.calls[index]?).bind List.head?

def World.Has (world : World σ τ) (task : τ) : Prop := ∃ tasks ∈ world.calls, task ∈ tasks

def afterTask (replaced : Option (List τ)) (rest : List τ) : List τ :=
  match replaced with
  | some tasks => tasks ++ rest
  | none => []

/-- A world after an action. -/
def World.next (step : TaskStep σ τ) (tasksOf : κ → List τ) (world : World σ τ) :
    WorldAction κ → World σ τ
  | .start call => { world with calls := world.calls ++ [tasksOf call] }
  | .run index =>
    match world.calls[index]? with
    | some (task :: rest) =>
      { db := (step task world.db).1
        calls := world.calls.set index (afterTask (step task world.db).2 rest) }
    | _ => world

/-- Every order of the tasks of every number of calls. -/
abbrev worldMachine (step : TaskStep σ τ) (tasksOf : κ → List τ) :
    Machine (World σ τ) (WorldAction κ) where
  allowed := fun _ _ => True
  next := World.next step tasksOf

section Next

variable {step : TaskStep σ τ} {tasksOf : κ → List τ} {world : World σ τ} {index : Nat} {task : τ}

theorem World.task_some (h : world.task index = some task) :
    ∃ rest, world.calls[index]? = some (task :: rest) := by
  unfold World.task at h
  obtain ⟨tasks, htasks, hhead⟩ := Option.bind_eq_some_iff.mp h
  cases tasks with
  | nil => cases hhead
  | cons first rest =>
    obtain rfl := Option.some.inj hhead
    exact ⟨rest, htasks⟩

variable {rest : List τ}

theorem World.next_run (h : world.calls[index]? = some (task :: rest)) :
    world.next step tasksOf (.run index) =
      { db := (step task world.db).1
        calls := world.calls.set index (afterTask (step task world.db).2 rest) } := by
  unfold World.next
  simp only [h]

theorem World.next_idle (h : world.task index = none) :
    world.next step tasksOf (.run index) = world := by
  unfold World.next
  simp only
  split
  · rename_i task rest htasks
    unfold World.task at h
    rw [htasks] at h
    cases h
  · rfl

theorem World.run_cases (step : TaskStep σ τ) (tasksOf : κ → List τ) (world : World σ τ)
    (index : Nat) :
    world.next step tasksOf (.run index) = world ∨
      ∃ task rest, world.calls[index]? = some (task :: rest) ∧
        world.next step tasksOf (.run index) =
          { db := (step task world.db).1
            calls := world.calls.set index (afterTask (step task world.db).2 rest) } := by
  cases htask : world.task index with
  | none => exact Or.inl (World.next_idle htask)
  | some task =>
    obtain ⟨rest, hrest⟩ := World.task_some htask
    exact Or.inr ⟨task, rest, hrest, World.next_run hrest⟩

theorem World.has_of_call {tasks : List τ} (h : world.calls[index]? = some tasks)
    (hmem : task ∈ tasks) : world.Has task :=
  ⟨tasks, List.mem_of_getElem? h, hmem⟩

theorem World.has_start {call : κ} (h : (world.next step tasksOf (.start call)).Has task) :
    world.Has task ∨ task ∈ tasksOf call := by
  obtain ⟨tasks, htasks, hmem⟩ := h
  rcases List.mem_append.mp htasks with hold | hnew
  · exact Or.inl ⟨tasks, hold, hmem⟩
  · rw [List.mem_singleton.mp hnew] at hmem
    exact Or.inr hmem

theorem World.has_run {first : τ} (hcall : world.calls[index]? = some (first :: rest))
    (h : (world.next step tasksOf (.run index)).Has task) :
    world.Has task ∨ ∃ tasks, (step first world.db).2 = some tasks ∧ task ∈ tasks := by
  obtain ⟨left, hleft, hmem⟩ := h
  rw [World.next_run hcall] at hleft
  rcases List.mem_or_eq_of_mem_set hleft with hold | rfl
  · exact Or.inl ⟨left, hold, hmem⟩
  · unfold afterTask at hmem
    split at hmem
    · rename_i tasks htasks
      rcases List.mem_append.mp hmem with hnew | hrest
      · exact Or.inr ⟨tasks, htasks, hnew⟩
      · exact Or.inl (World.has_of_call hcall (List.mem_cons_of_mem _ hrest))
    · cases hmem

theorem World.call_run (step : TaskStep σ τ) (tasksOf : κ → List τ) {first : τ}
    (hcall : world.calls[index]? = some (first :: rest)) :
    (world.next step tasksOf (.run index)).calls[index]? =
      some (afterTask (step first world.db).2 rest) := by
  rw [World.next_run hcall]
  have hlt : index < world.calls.length := (List.getElem?_eq_some_iff.mp hcall).1
  simp [hlt]

theorem World.call_other {other : Nat} (h : other ≠ index) :
    (world.next step tasksOf (.run index)).calls[other]? = world.calls[other]? := by
  rcases World.run_cases step tasksOf world index with hsame | ⟨first, rest, -, hnext⟩
  · rw [hsame]
  · rw [hnext, List.getElem?_set_ne (Ne.symm h)]

def World.tasks (world : World σ τ) : List τ := world.calls.flatten

theorem World.tasks_start (call : κ) :
    (world.next step tasksOf (.start call)).tasks = world.tasks ++ tasksOf call := by
  simp [World.tasks, World.next]

theorem World.tasks_run (step : TaskStep σ τ) (tasksOf : κ → List τ) {first : τ}
    (hcall : world.calls[index]? = some (first :: rest)) :
    ∃ others, world.tasks.Perm (first :: others) ∧
      (world.next step tasksOf (.run index)).tasks.Subperm
        ((step first world.db).2.getD [] ++ others) := by
  obtain ⟨hlt, hcall'⟩ := List.getElem?_eq_some_iff.mp hcall
  let before := (world.calls.take index).flatten
  let after := (world.calls.drop (index + 1)).flatten
  have hsplit : world.tasks = before ++ (first :: rest ++ after) := by
    have hcalls : world.calls =
        world.calls.take index ++ (first :: rest) :: world.calls.drop (index + 1) := by
      rw [← hcall', List.getElem_cons_drop, List.take_append_drop]
    unfold World.tasks
    rw [hcalls, List.flatten_append, List.flatten_cons]
  have hnext : (world.next step tasksOf (.run index)).tasks =
      before ++ (afterTask (step first world.db).2 rest ++ after) := by
    rw [World.next_run hcall]
    unfold World.tasks
    simp only [List.set_eq_take_append_cons_drop, hlt, if_true, List.flatten_append,
      List.flatten_cons]
    rfl
  refine ⟨rest ++ (before ++ after), ?_, ?_⟩
  · rw [hsplit, List.cons_append]
    refine List.perm_middle.trans (List.Perm.cons _ ?_)
    rw [← List.append_assoc, ← List.append_assoc]
    exact List.perm_append_comm.append_right _
  · rw [hnext]
    cases (step first world.db).2 with
    | none =>
      exact (List.sublist_append_right _ _).subperm
    | some tasks =>
      show (before ++ (tasks ++ rest ++ after)).Subperm (tasks ++ (rest ++ (before ++ after)))
      have hbefore : before ++ (tasks ++ rest ++ after) = before ++ (tasks ++ rest) ++ after := by
        simp only [List.append_assoc]
      have hafter : tasks ++ (rest ++ (before ++ after)) = tasks ++ rest ++ before ++ after := by
        simp only [List.append_assoc]
      rw [hbefore, hafter]
      exact (List.perm_append_comm.append_right _).subperm

/-- The database has a property, and so has every task that is left. -/
structure World.Keeps (D : σ → Prop) (T : σ → τ → Prop) (world : World σ τ) : Prop where
  db : D world.db
  tasks : ∀ task, world.Has task → T world.db task

theorem World.Keeps.next_when {D : σ → Prop} {T : σ → τ → Prop} {C : σ → τ → Prop}
    (h : world.Keeps D T) (hstart : ∀ db call, ∀ task ∈ tasksOf call, T db task)
    (hdb : ∀ db task, D db → T db task → C db task → D (step task db).1)
    (hleft : ∀ db task other, D db → T db task → C db task → T db other →
      T (step task db).1 other)
    (hnew : ∀ db task tasks, D db → T db task → C db task → (step task db).2 = some tasks →
      ∀ other ∈ tasks, T (step task db).1 other) (action : WorldAction κ)
    (hcondition : ∀ index task, action = .run index → world.task index = some task →
      C world.db task) :
    (world.next step tasksOf action).Keeps D T := by
  cases action with
  | start call =>
    refine ⟨h.db, fun task hhas => ?_⟩
    rcases World.has_start hhas with hold | hmem
    · exact h.tasks task hold
    · exact hstart world.db call task hmem
  | run index =>
    rcases World.run_cases step tasksOf world index with hsame | ⟨first, rest, hcall, hnext⟩
    · rw [hsame]
      exact h
    · have hfirst := h.tasks first (World.has_of_call hcall List.mem_cons_self)
      have hmeets : C world.db first := by
        apply hcondition index first rfl
        simp [World.task, hcall]
      have hlater : (world.next step tasksOf (.run index)).db = (step first world.db).1 := by
        rw [hnext]
      refine ⟨?_, fun task hhas => ?_⟩
      · rw [hlater]
        exact hdb world.db first h.db hfirst hmeets
      · rw [hlater]
        rcases World.has_run hcall hhas with hold | ⟨tasks, htasks, hmem⟩
        · exact hleft world.db first task h.db hfirst hmeets (h.tasks task hold)
        · exact hnew world.db first tasks h.db hfirst hmeets htasks task hmem

theorem World.Keeps.next {D : σ → Prop} {T : σ → τ → Prop} (h : world.Keeps D T)
    (hstart : ∀ db call, ∀ task ∈ tasksOf call, T db task)
    (hdb : ∀ db task, D db → T db task → D (step task db).1)
    (hleft : ∀ db task other, D db → T db task → T db other → T (step task db).1 other)
    (hnew : ∀ db task tasks, D db → T db task → (step task db).2 = some tasks →
      ∀ other ∈ tasks, T (step task db).1 other) (action : WorldAction κ) :
    (world.next step tasksOf action).Keeps D T := by
  apply h.next_when (C := fun _ _ => True) hstart
  · intro db task hD hT _
    exact hdb db task hD hT
  · intro db task other hD hT _
    exact hleft db task other hD hT
  · intro db task tasks hD hT _
    exact hnew db task tasks hD hT
  · intro _ _ _ _
    trivial

end Next

end LocalPlatform.Interleavings
