import LocalGateway.Routing.Candidates

/-!
# The usage table

The rows of `usage.db` that requests leave behind (`log_request`), without their times and
latencies, and what a rename does to them.
-/

namespace LocalGateway

/-- Whom a request is attributed to. -/
structure Caller where
  apiKeyId : Option PyStr
  endUser : Option PyStr
  requestId : Option PyStr
deriving DecidableEq

/-- `StreamUsage`. -/
structure StreamUsage where
  inputTokens : Option ℤ
  outputTokens : Option ℤ
  reasoningTokens : Option ℤ
  cachedTokens : Option ℤ
  cacheWriteTokens : Option ℤ
deriving DecidableEq

/-- `StreamUsage()`. -/
def StreamUsage.none : StreamUsage :=
  ⟨.none, .none, .none, .none, .none⟩

/-- A row of `usage`. -/
structure UsageRow where
  logicalModel : PyStr
  provider : PyStr
  backendModel : PyStr
  success : Bool
  error : Option PyStr
  usage : StreamUsage
  cost : Option PyFloat
  stream : Bool
  caller : Caller
  cacheHit : Bool
deriving DecidableEq

/-- `rename_model`, on the rows. -/
def renameModelRows (old new : PyStr) (rows : List UsageRow) : List UsageRow :=
  rows.map fun r ↦ if r.logicalModel = old then { r with logicalModel := new } else r

/-- `rename_provider`, on the rows. -/
def renameProviderRows (old new : PyStr) (rows : List UsageRow) : List UsageRow :=
  rows.map fun r ↦ if r.provider = old then { r with provider := new } else r

/-- Renaming two ids to the same one has the same effect on rows that bear neither, or if they are
one id. -/
theorem renameModelRows_eq_iff {old id new : PyStr} (hold : new ≠ old) (hid : new ≠ id)
    (rows : List UsageRow) :
    renameModelRows old new rows = renameModelRows id new rows ↔
      old = id ∨ ∀ r ∈ rows, r.logicalModel ≠ old ∧ r.logicalModel ≠ id := by
  unfold renameModelRows
  rw [List.map_inj_left]
  constructor
  · intro h
    rw [or_iff_not_imp_left]
    intro hne r hr
    have hrow := congrArg UsageRow.logicalModel (h r hr)
    constructor
    · rintro rfl
      rw [if_pos rfl, if_neg hne] at hrow
      exact hold hrow
    · rintro rfl
      rw [if_pos rfl, if_neg fun heq ↦ hne heq.symm] at hrow
      exact hid hrow.symm
  · rintro (rfl | h) r hr
    · rfl
    · rw [if_neg (h r hr).1, if_neg (h r hr).2]

end LocalGateway
