import Mathlib.Tactic.SplitIfs

/-!
# Transactions

A connection to a database works on a copy of what is committed: statements change the copy, a commit publishes it and a
rollback drops it. A statement that fails changes nothing. `alone` executes one statement in a transaction of its own,
or skips it if it fails, and `sequential` does so one after the other.

* `flush` executes a batch in one transaction; if a statement fails, the batch is rolled back and replayed, each
  statement in a transaction of its own.
* `flush_eq`: a batch has the effect of its statements one after the other, whichever of them fail.
-/

namespace Transactions

variable {σ δ : Type*}

/-- A connection: what is committed, and what its open transaction has made of it. -/
structure Session (δ : Type*) where
  committed : δ
  current : δ

namespace Session

/-- A connection without an open transaction. -/
def fresh (db : δ) : Session δ :=
  ⟨db, db⟩

/-- The open transaction is published. -/
def commit (c : Session δ) : Session δ :=
  ⟨c.current, c.current⟩

/-- The open transaction is dropped. -/
def rollback (c : Session δ) : Session δ :=
  ⟨c.committed, c.committed⟩

@[simp] theorem committed_fresh (db : δ) : (fresh db).committed = db := rfl

end Session

variable (execute : σ → δ → Option δ)

/-- A statement in a transaction of its own, or none if it fails. -/
def alone (db : δ) (statement : σ) : δ :=
  (execute statement db).getD db

/-- Statements one after the other, each in a transaction of its own. -/
def sequential (statements : List σ) (db : δ) : δ :=
  statements.foldl (alone execute) db

/-- The statements of a batch in one transaction, up to the first that fails; whether none does. -/
def executeAll (c : Session δ) : List σ → Session δ × Bool
  | [] => (c, true)
  | statement :: statements =>
    (execute statement c.current).elim (c, false) fun db ↦ executeAll ⟨c.committed, db⟩ statements

/-- A statement and a commit, unless the statement fails. -/
def replay (c : Session δ) (statement : σ) : Session δ :=
  (execute statement c.current).elim c fun db ↦ Session.commit ⟨c.committed, db⟩

/-- A batch in one transaction; if that fails, its statements one by one. -/
def flush (c : Session δ) (batch : List σ) : Session δ :=
  let r := executeAll execute c batch
  if r.2 then r.1.commit else batch.foldl (replay execute) r.1.rollback

variable {execute}

@[simp] theorem sequential_nil (db : δ) : sequential execute [] db = db := rfl

theorem sequential_cons (statement : σ) (statements : List σ) (db : δ) :
    sequential execute (statement :: statements) db = sequential execute statements (alone execute db statement) :=
  rfl

theorem sequential_append (statements more : List σ) (db : δ) :
    sequential execute (statements ++ more) db = sequential execute more (sequential execute statements db) :=
  List.foldl_append

variable (execute) in
/-- Statements in one transaction leave what is committed alone, and what they have made of it is what they make one
after the other, if none fails. -/
theorem executeAll_cases (c : Session δ) (batch : List σ) : (executeAll execute c batch).1.committed = c.committed ∧
    ((executeAll execute c batch).2 = true →
      (executeAll execute c batch).1.current = sequential execute batch c.current) := by
  induction batch generalizing c with
  | nil => exact ⟨rfl, fun _ ↦ rfl⟩
  | cons statement batch ih =>
    rw [executeAll, sequential_cons, alone]
    rcases execute statement c.current with - | db
    · exact ⟨rfl, fun h ↦ absurd h Bool.false_ne_true⟩
    · exact ih ⟨c.committed, db⟩

theorem replay_fresh (db : δ) (statement : σ) :
    replay execute (.fresh db) statement = .fresh (alone execute db statement) := by
  unfold replay alone Session.fresh
  dsimp only
  rcases execute statement db with - | db'
  · rfl
  · rfl

/-- Statements that are replayed have their effects one after the other. -/
theorem foldl_replay (batch : List σ) (db : δ) :
    batch.foldl (replay execute) (.fresh db) = .fresh (sequential execute batch db) := by
  induction batch generalizing db with
  | nil => rfl
  | cons statement batch ih => rw [List.foldl_cons, replay_fresh, ih, sequential_cons]

/-- **A batch has the effect of its statements one after the other**, whichever of them fail. -/
theorem flush_eq (batch : List σ) (db : δ) :
    flush execute (.fresh db) batch = .fresh (sequential execute batch db) := by
  obtain ⟨hcommitted, hcurrent⟩ := executeAll_cases execute (.fresh db) batch
  unfold flush
  dsimp only
  split_ifs with hall
  · rw [Session.commit, hcurrent hall]
    rfl
  · rw [Session.rollback, hcommitted]
    exact foldl_replay batch db

end Transactions
