import Mathlib.Data.List.Forall2
import Mathlib.Data.List.Nodup
import Mathlib.Logic.Function.Basic

/-!
# Tables that gain columns

A table of a database to which columns are added while it is in use. A row has something in each column; what it has
under a name that is no column of the table says nothing.

* `Table.addColumn` fails if there is a column of the name, and `Table.execute` if one is missing that the statement
  names. A `Statement` reads nothing but known columns.
* `Table.Shows`: the table is what it would be if it had had all known columns from the start.
* `Shows.addColumn`, `Shows.execute`: columns and statements keep it so.

Nothing here knows which columns there are, or what is in them.
-/

namespace Columns

variable {κ ν : Type*}

/-- A table. No two columns have one name. -/
structure Table (κ ν : Type*) where
  columns : List κ
  nodup : columns.Nodup
  rows : List (κ → ν)

/-- Rows have the same in some columns. -/
def Agree (p : κ → Prop) (rows rows' : List (κ → ν)) : Prop :=
  List.Forall₂ (fun row row' ↦ ∀ c, p c → row c = row' c) rows rows'

/-- A statement that changes rows: the columns it names, and what it makes of the rows by what is in known columns. -/
structure Statement (known : List κ) (ν : Type*) where
  columns : List κ
  apply : List (κ → ν) → List (κ → ν)
  columns_known : columns ⊆ known
  agree : ∀ rows rows', Agree (· ∈ known) rows rows' → Agree (· ∈ known) (apply rows) (apply rows')

namespace Agree

variable {p q : κ → Prop} {rows rows' : List (κ → ν)}

theorem mono (h : Agree q rows rows') (hpq : ∀ c, p c → q c) : Agree p rows rows' :=
  List.Forall₂.imp (fun _ _ hrow c hc ↦ hrow c (hpq c hc)) h

theorem refl (p : κ → Prop) (rows : List (κ → ν)) : Agree p rows rows :=
  List.forall₂_same.2 fun _ _ _ _ ↦ rfl

end Agree

section

variable [DecidableEq κ]

/-- `CREATE TABLE` with columns. -/
def Table.create (columns : List κ) (nodup : columns.Nodup) : Table κ ν :=
  ⟨columns, nodup, []⟩

/-- `ALTER TABLE … ADD COLUMN` with a default. -/
def Table.addColumn (t : Table κ ν) (c : κ) (v : ν) : Option (Table κ ν) :=
  if h : c ∈ t.columns then none
  else some ⟨t.columns ++ [c], List.nodup_append_comm.1 (List.nodup_cons.2 ⟨h, t.nodup⟩),
    t.rows.map fun row ↦ Function.update row c v⟩

/-- A statement, which fails if the table has no column of a name. -/
def Table.execute {known : List κ} (t : Table κ ν) (statement : Statement known ν) : Option (Table κ ν) :=
  if statement.columns ⊆ t.columns then some { t with rows := statement.apply t.rows } else none

/-- A row with the defaults of the columns that a table lacks. -/
def Table.fill (t : Table κ ν) (default : κ → ν) (row : κ → ν) (c : κ) : ν :=
  if c ∈ t.columns then row c else default c

/-- The table has the rows, in so far as it has the columns; in those that it lacks, the rows have the default. -/
structure Table.Shows (t : Table κ ν) (known : List κ) (default : κ → ν) (rows : List (κ → ν)) : Prop where
  agree : Agree (fun c ↦ c ∈ known ∧ c ∈ t.columns) rows t.rows
  missing : ∀ c ∈ known, c ∉ t.columns → ∀ row ∈ rows, row c = default c

variable {known : List κ} {default : κ → ν} {t t' : Table κ ν} {rows : List (κ → ν)} {c : κ} {v : ν}

theorem addColumn_eq_none_iff : t.addColumn c v = none ↔ c ∈ t.columns := by
  unfold Table.addColumn
  by_cases h : c ∈ t.columns
  · rw [dif_pos h]
    exact iff_of_true rfl h
  · rw [dif_neg h]
    exact iff_of_false (Option.some_ne_none _) h

/-- A column that is added is the last one, and was not there. -/
theorem columns_addColumn (h : t.addColumn c v = some t') : c ∉ t.columns ∧ t'.columns = t.columns ++ [c] := by
  unfold Table.addColumn at h
  split_ifs at h with hc
  obtain rfl := Option.some.inj h
  exact ⟨hc, rfl⟩

theorem execute_eq_some {statement : Statement known ν} (h : statement.columns ⊆ t.columns) :
    t.execute statement = some { t with rows := statement.apply t.rows } :=
  if_pos h

/-- A table shows its own rows, filled up. -/
theorem shows_fill (t : Table κ ν) (known : List κ) (default : κ → ν) :
    t.Shows known default (t.rows.map (t.fill default)) where
  agree := by
    rw [Agree, List.forall₂_map_left_iff, List.forall₂_same]
    rintro row - c ⟨-, hc⟩
    exact if_pos hc
  missing c _ hc row hrow := by
    obtain ⟨row, -, rfl⟩ := List.mem_map.1 hrow
    exact if_neg hc

omit [DecidableEq κ] in
/-- A new table shows no rows. -/
theorem shows_create (columns : List κ) (nodup : columns.Nodup) (known : List κ) (default : κ → ν) :
    (Table.create columns nodup).Shows known default [] where
  agree := .nil
  missing _ _ _ _ hrow := absurd hrow List.not_mem_nil

/-- **Adding a column** with its default shows the same rows. -/
theorem Table.Shows.addColumn (h : t.Shows known default rows) (hc : c ∈ known)
    (hadd : t.addColumn c (default c) = some t') : t'.Shows known default rows := by
  obtain ⟨hmissing, hcolumns⟩ := columns_addColumn hadd
  have hdefault := h.missing c hc hmissing
  unfold Table.addColumn at hadd
  rw [dif_neg hmissing] at hadd
  obtain rfl := Option.some.inj hadd
  refine ⟨?_, fun d hd hnot ↦ h.missing d hd fun hmem ↦ hnot (List.mem_append_left _ hmem)⟩
  rw [Agree, List.forall₂_map_right_iff]
  refine List.Forall₂.imp ?_ ((List.forall₂_and_left (p := fun row ↦ row c = default c) _ _).2 ⟨hdefault, h.agree⟩)
  rintro row row' ⟨hrow, hagree⟩ d ⟨hd, hmem⟩
  by_cases hdc : d = c
  · rw [hdc, Function.update_self, hrow]
  · rw [Function.update_of_ne hdc]
    exact hagree d ⟨hd, (List.mem_append.1 hmem).resolve_right fun h ↦ hdc (List.mem_singleton.1 h)⟩

/-- **A statement** that names no column that is missing, while none is. -/
theorem Table.Shows.execute (h : t.Shows known default rows) (hall : known ⊆ t.columns)
    (statement : Statement known ν) :
    ∃ t', t.execute statement = some t' ∧ t'.columns = t.columns ∧ t'.Shows known default (statement.apply rows) := by
  refine ⟨_, execute_eq_some (List.Subset.trans statement.columns_known hall), rfl, ?_,
    fun c hc hnot ↦ absurd (hall hc) hnot⟩
  exact (statement.agree _ _ (h.agree.mono fun c hc ↦ ⟨hc, hall hc⟩)).mono fun c hc ↦ hc.1

end

end Columns
