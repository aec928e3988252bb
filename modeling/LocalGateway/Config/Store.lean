import Mathlib.Logic.Function.Basic
import LocalGateway.Config.Admin
import LocalGateway.Foundations.Runs

/-!
# The configuration store

The live configuration object of the process, `config.json` and its backups, with the operations of
`config.py` (`load_config`, `save_config`, `reload_config`, `_rotate_backups`) and the requests that
use them. The live object is shared: a handler works on what `load_config` returns, so what it
assigns stays there whether or not it is saved.

`_config_mtime` matters only by whether it is the time of the file that is there now, which is the
flag `fresh`. No request meets another one half way: a handler runs from its `load_config` to its
answer in one step, and a handler that rejects a body before it loads is taken to load first.
-/

namespace LocalGateway

open Json

/-! ### Files -/

/-- What a configuration file holds: text that decodes to JSON, or text that does not. -/
inductive File
  | json (v : Json)
  | garbage
deriving DecidableEq

/-- `_parse(json.loads(path.read_text()))`. -/
def File.read (p : Pydantic) : File → Except ParseError GatewayConfig
  | .json v => parseConfig p v
  | .garbage => .error .invalid

/-- `BACKUP_KEEP`. -/
def backupKeep : ℕ := 5

/-- Move the backup of a slot up one slot, if there is one. -/
def shiftUp (backups : ℕ → Option File) (i : ℕ) : ℕ → Option File :=
  match backups i with
  | none => backups
  | some f => Function.update (Function.update backups (i + 1) (some f)) i none

/-- `_rotate_backups`. -/
def rotateBackups (backups : ℕ → Option File) : ℕ → Option File :=
  (List.range (backupKeep - 1)).reverse.foldl shiftUp (Function.update backups backupKeep none)

/-! ### Loading and saving -/

/-- The process and its files: `_config`, whether `_config_mtime` is the time of the file that is
there, `config.json`, and the backup of each slot. -/
structure Store where
  live : Option GatewayConfig
  fresh : Bool
  main : Option File
  backups : ℕ → Option File

/-- A process that has just been started. -/
def Store.start (main : Option File) (backups : ℕ → Option File) : Store :=
  ⟨none, false, main, backups⟩

/-- The files `load_config` tries, in its order. -/
def Store.candidates (s : Store) : List File :=
  s.main.toList ++ (List.range backupKeep).filterMap s.backups

/-- The first file that is valid. The exception that the loop does not catch ends it. -/
def firstValid (p : Pydantic) : List File → Except ParseError (Option GatewayConfig)
  | [] => .ok none
  | f :: fs =>
    match f.read p with
    | .ok c => .ok (some c)
    | .error .invalid => firstValid p fs
    | .error .typeError => .error .typeError

section Operations

variable (p : Pydantic)

/-- What `load_config` makes of the files. -/
def Store.fromFiles (s : Store) : Option GatewayConfig :=
  match firstValid p s.candidates with
  | .ok c => some (c.getD .empty)
  | .error _ => none

/-- What `load_config` returns; there is no value if it raises. -/
def Store.current (s : Store) : Option GatewayConfig :=
  match s.live, s.fresh with
  | some c, true => some c
  | _, _ => s.fromFiles p

/-- `load_config`. -/
def Store.load (s : Store) : Store :=
  match s.current p with
  | some c => { s with live := some c, fresh := true }
  | none => s

/-- The backups once `config.json` has become the newest of them. -/
def Store.keptBackups (s : Store) : ℕ → Option File :=
  match s.main with
  | some f => Function.update (rotateBackups s.backups) 0 (some f)
  | none => s.backups

/-- `save_config`, with whether it succeeds: a value that cannot be encoded is met after
`config.json` has become the newest backup. `shared` says whether `c` is the live object, whose
version is then counted up all the same. -/
def Store.save (s : Store) (c : GatewayConfig) (shared : Bool) : Store × Bool :=
  let c := { c with version := c.version + 1 }
  if c.dump.encodable then (⟨some c, true, some (.json c.dump), s.keptBackups⟩, true)
  else
    -- a file that was there has gone, and its time with it
    (⟨if shared then some c else s.live, s.fresh && s.main.isNone, none, s.keptBackups⟩, false)

/-- `reload_config`. -/
def Store.reload (s : Store) : Store :=
  ({ s with live := none, fresh := false } : Store).load p

/-! ### Requests -/

/-- A request that edits the configuration, with whether the change is saved. -/
def Store.edit (s : Store) (e : Edit) : Store × Bool :=
  match s.current p with
  | none => (s, false)
  | some c =>
    let o := handle p c e
    let s := { s.load p with live := some o.live }
    match o.verdict with
    | .save => s.save o.live true
    | .saveNew c' => s.save c' false
    | .reject _ _ | .crash => (s, false)

/-- `_backup_at(slot)`, where it exists. -/
def Store.backupAt (s : Store) (slot : ℤ) : Option File :=
  if slot < 0 then none else s.backups slot.toNat

/-- `restore_backup`, with whether it succeeds. The backup is staged, the others move up, and
copying `config.json` into slot 0 raises if there is none. -/
def Store.restore (s : Store) (slot : ℤ) : Store × Bool :=
  match s.backupAt slot with
  | none => (s, false)
  | some f =>
    match f.read p with
    | .error _ => (s, false)
    | .ok _ =>
      let backups := rotateBackups s.backups
      match s.main with
      | none => ({ s with backups := backups }, false)
      | some g =>
        let s := { s with main := some f, backups := Function.update backups 0 (some g) }
        (s.reload p, true)

/-- An operation on the configuration. A restart forgets what is in memory. -/
inductive Op
  | edit (e : Edit)
  | restore (slot : ℤ)
  | reload
  | restart
deriving DecidableEq

/-- The store after an operation, and whether it was an edit or a restore that succeeded. -/
def Store.apply (s : Store) : Op → Store × Bool
  | .edit e => s.edit p e
  | .restore slot => s.restore p slot
  | .reload => (s.reload p, false)
  | .restart => (.start s.main s.backups, false)

/-- The store after an operation. -/
def Store.next (s : Store) (op : Op) : Store :=
  (s.apply p op).1

end Operations

end LocalGateway
