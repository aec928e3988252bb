import LocalGateway.Config.Version

/-!
# Interleaved edits

The edits of one model look the model up, then wait for the body of the request, and then change the
configuration object they loaded. `put_config` waits before it loads, and puts another object in the
place of the live one. So an edit that waits can hold an object that is no longer live, and its save
brings that object back.

The configuration objects of the process are a list, and a waiting handler holds the index of one of
them (`Waiting`). The atomic store of `Config/Store` is what is seen of such a process from outside
(`Shared.store`), and the edits are serial if it goes the same way when they are applied to it one
after the other, each in one step (`serial`). They are if every handler that is resumed still holds
the live object and its model (`Shared.Current`), and they are not if one holds another object
(`Shared.Holds`): each save of the live object counts its version up by one, and an object that was
replaced has fallen behind for good.
-/

namespace LocalGateway

open Py Json

/-! ### Requests that wait -/

/-- A request whose handler looks a model up before it waits for the body. -/
inductive Call
  | updateModel (id : PyStr)
  | setBackendsTiers (id : PyStr)
  | addBackend (id : PyStr)
  | updateBackend (id : PyStr) (index : ℤ)
deriving DecidableEq

/-- The path parameter `model_id`. -/
def Call.model : Call → PyStr
  | .updateModel id => id
  | .setBackendsTiers id => id
  | .addBackend id => id
  | .updateBackend id _ => id

/-- What is checked of the model before the body is awaited: `update_backend` has the index of a
backend. -/
def Call.admits : Call → ModelConfig → Bool
  | .updateBackend _ index, m => (backendAt m index).isSome
  | _, _ => true

/-- What is done to the model once the body is there. -/
def Call.work (p : Pydantic) : Call → Json → ModelConfig → ModelConfig × Verdict
  | .updateModel _, body => LocalGateway.updateModel p body
  | .setBackendsTiers _, body => LocalGateway.setBackendsTiers body
  | .addBackend _, body => LocalGateway.addBackend p body
  | .updateBackend _ index, body => LocalGateway.updateBackend index body

/-- The request with its body. -/
def Call.edit : Call → Json → Edit
  | .updateModel id, body => .updateModel id body
  | .setBackendsTiers id, body => .setBackendsTiers id body
  | .addBackend id, body => .addBackend id body
  | .updateBackend id index, body => .updateBackend id index body

/-- A handler at its `await request.json()`: the configuration object it has loaded, and the model
it has found there. -/
structure Waiting where
  call : Call
  object : ℕ
  model : ℕ
deriving DecidableEq

/-! ### The process -/

/-- The process between two steps: its configuration objects, which of them is `_config`, the files,
the handlers that wait, and the edits that have answered success, in the order of their saves. The
time in `_config_mtime` is that of the file, as nothing but `save_config` writes it. -/
structure Shared where
  objects : List GatewayConfig
  live : ℕ
  main : Option File
  backups : ℕ → Option File
  waiting : List Waiting
  saved : List Edit

/-- A process that has loaded its configuration. -/
def Shared.start (c : GatewayConfig) (main : Option File) (backups : ℕ → Option File) : Shared :=
  ⟨[c], 0, main, backups, [], []⟩

/-- The live object and the files. -/
def Shared.store (t : Shared) : Store :=
  ⟨t.objects[t.live]?, true, t.main, t.backups⟩

/-- `save_config` of the object with an index, which then has the contents `c`. -/
def Shared.write (t : Shared) (object : ℕ) (c : GatewayConfig) (e : Edit) : Option Shared :=
  match t.store.save c (object = t.live) with
  | (s, true) => some
      { t with
        objects := t.objects.set object { c with version := c.version + 1 }
        live := object
        main := s.main
        backups := s.backups
        saved := t.saved ++ [e] }
  | (_, false) => none

/-- What happens at one of the points where handlers change over. `resume` is the body of the
request that waits in a place of the queue; `put` is `put_config`, which has its body before it loads. -/
inductive Turn
  | arrive (call : Call)
  | resume (place : ℕ) (body : Json)
  | put (body : Json)
deriving DecidableEq

section Steps

variable (p : Pydantic)

/-- The turn, if the handler does not answer with an error. -/
def Shared.step (t : Shared) : Turn → Option Shared
  | .arrive call => do
    let c ← t.objects[t.live]?
    let i ← c.modelIndex call.model
    let m ← c.models[i]?
    if call.admits m then some { t with waiting := t.waiting ++ [⟨call, t.live, i⟩] } else none
  | .resume place body => do
    let w ← t.waiting[place]?
    let c ← t.objects[w.object]?
    let m ← c.models[w.model]?
    -- the handler goes on with the object that was live when it arrived
    match w.call.work p body m with
    | (m, .save) =>
      let t := { t with waiting := t.waiting.eraseIdx place }
      t.write w.object { c with models := c.models.set w.model m } (w.call.edit body)
    | _ => none
  | .put body => do
    let c ← t.objects[t.live]?
    match (putConfig p c body).verdict with
    | .saveNew c' =>
      ({ t with objects := t.objects ++ [c'] }).write t.objects.length c' (.putConfig body)
    | _ => none

/-- A run of successful requests goes on with a successful step. -/
def Shared.next (t : Option Shared) (step : Turn) : Option Shared :=
  t.bind (·.step p step)

/-- The edits one after the other, each in one step, as long as they succeed. -/
def serial (s : Store) : List Edit → Option Store
  | [] => some s
  | e :: es =>
    match s.edit p e with
    | (s, true) => serial s es
    | (_, false) => none

end Steps

/-! ### The two conditions -/

/-- A handler that is resumed holds the live object. -/
def Shared.Holds (t : Shared) : Turn → Prop
  | .resume place _ => ∀ w ∈ t.waiting[place]?, w.object = t.live
  | _ => True

/-- A handler that is resumed holds the live object, and its id still names the model it holds. -/
def Shared.Current (t : Shared) : Turn → Prop
  | .resume place _ => ∀ w ∈ t.waiting[place]?, ∀ c ∈ t.objects[w.object]?,
      w.object = t.live ∧ c.modelIndex w.call.model = some w.model
  | _ => True

instance (t : Shared) (i : Turn) : Decidable (t.Current i) :=
  match i with
  | .resume place _ => inferInstanceAs (Decidable (∀ w ∈ t.waiting[place]?,
      ∀ c ∈ t.objects[w.object]?, w.object = t.live ∧ c.modelIndex w.call.model = some w.model))
  | .arrive _ => .isTrue trivial
  | .put _ => .isTrue trivial

/-! ### What a save does -/

/-- The object as `save_config` leaves it. -/
def GatewayConfig.bump (c : GatewayConfig) : GatewayConfig :=
  { c with version := c.version + 1 }

/-- The store after a save that succeeds. -/
def Store.written (s : Store) (c : GatewayConfig) : Store :=
  ⟨some c.bump, true, some (.json c.bump.dump), s.keptBackups⟩

theorem save_of_encodable {c : GatewayConfig} (h : c.bump.dump.encodable = true) (s : Store)
    (shared : Bool) : s.save c shared = (s.written c, true) :=
  if_pos h

theorem save_of_not_encodable {c : GatewayConfig} (h : c.bump.dump.encodable = false) (s : Store)
    (shared : Bool) : (s.save c shared).2 = false := by
  have hne : ¬ c.bump.dump.encodable = true := by simp [h]
  show (if c.bump.dump.encodable = true then _ else _ : Store × Bool).2 = false
  rw [if_neg hne]

/-- **A save of a shared process.** The object is the live one afterwards, and the store is the one
an atomic save leaves. -/
theorem write_eq_some {t t' : Shared} {object : ℕ} {c : GatewayConfig} {e : Edit}
    (h : t.write object c e = some t') :
    c.bump.dump.encodable = true ∧ t' = { t with
      objects := t.objects.set object c.bump
      live := object
      main := (t.store.written c).main
      backups := (t.store.written c).backups
      saved := t.saved ++ [e] } := by
  unfold Shared.write at h
  cases henc : c.bump.dump.encodable with
  | false =>
    have hfail := save_of_not_encodable henc t.store (object = t.live)
    split at h
    · next s hsave =>
      rw [hsave] at hfail
      cases hfail
    · cases h
  | true =>
    rw [save_of_encodable henc] at h
    exact ⟨rfl, (Option.some.inj h).symm⟩

theorem store_of_write {t t' : Shared} {object : ℕ} {c : GatewayConfig} {e : Edit}
    (h : t.write object c e = some t') (hobject : object < t.objects.length) :
    t'.store = t.store.written c := by
  obtain ⟨-, rfl⟩ := write_eq_some h
  simp [Shared.store, Store.written, hobject]

section Runs

variable {p : Pydantic}

/-! ### What a step does -/

theorem step_arrive {t t' : Shared} {call : Call} (h : t.step p (.arrive call) = some t') :
    ∃ w, t' = { t with waiting := t.waiting ++ [w] } := by
  simp only [Shared.step, Option.bind_eq_bind, Option.bind_eq_some_iff] at h
  obtain ⟨c, -, i, -, m, -, h⟩ := h
  split_ifs at h
  exact ⟨_, (Option.some.inj h).symm⟩

theorem step_resume {t t' : Shared} {place : ℕ} {body : Json}
    (h : t.step p (.resume place body) = some t') :
    ∃ w c m m', t.waiting[place]? = some w ∧ t.objects[w.object]? = some c ∧
      c.models[w.model]? = some m ∧ w.call.work p body m = (m', .save) ∧
      ({ t with waiting := t.waiting.eraseIdx place } : Shared).write w.object
        { c with models := c.models.set w.model m' } (w.call.edit body) = some t' := by
  simp only [Shared.step, Option.bind_eq_bind, Option.bind_eq_some_iff] at h
  obtain ⟨w, hw, c, hc, m, hm, h⟩ := h
  split at h
  · next m' hwork => exact ⟨w, c, m, m', hw, hc, hm, hwork, h⟩
  · cases h

theorem step_put {t t' : Shared} {body : Json} (h : t.step p (.put body) = some t') :
    ∃ c c', t.objects[t.live]? = some c ∧ (putConfig p c body).verdict = .saveNew c' ∧
      ({ t with objects := t.objects ++ [c'] } : Shared).write t.objects.length c'
        (.putConfig body) = some t' := by
  simp only [Shared.step, Option.bind_eq_bind, Option.bind_eq_some_iff] at h
  obtain ⟨c, hc, h⟩ := h
  split at h
  · next c' hverdict => exact ⟨c, c', hc, hverdict, h⟩
  · cases h

/-! ### What an edit in one step does -/

theorem written_of_live (s : Store) (live : GatewayConfig) (c : GatewayConfig) :
    (⟨some live, true, s.main, s.backups⟩ : Store).written c = s.written c := rfl

theorem edit_of_save {s : Store} {c c' : GatewayConfig} {e : Edit} (hc : s.current p = some c)
    (h : handle p c e = ⟨c', .save⟩) (henc : c'.bump.dump.encodable = true) :
    s.edit p e = (s.written c', true) := by
  rw [Store.edit, hc]
  simp only [h]
  rw [loaded_eq hc, save_of_encodable henc, written_of_live]

theorem edit_of_saveNew {s : Store} {c c' : GatewayConfig} {e : Edit} (hc : s.current p = some c)
    (h : (handle p c e).verdict = .saveNew c') (henc : c'.bump.dump.encodable = true) :
    s.edit p e = (s.written c', true) := by
  rw [Store.edit, hc]
  simp only [h]
  rw [loaded_eq hc, save_of_encodable henc, written_of_live]

/-- An edit that succeeds writes a configuration under the next number. -/
theorem edit_eq_true {s s' : Store} {e : Edit} (h : s.edit p e = (s', true)) :
    ∃ c c', s.current p = some c ∧ c'.version = c.version ∧ s' = s.written c' := by
  have hsave : ∀ {c live : GatewayConfig} {shared : Bool}, s.current p = some c →
      ∀ c', ({ s.load p with live := some live } : Store).save c' shared = (s', true) →
        s' = s.written c' := by
    intro c live shared hc c' heq
    rw [loaded_eq hc] at heq
    cases henc : c'.bump.dump.encodable with
    | false =>
      have hfail := save_of_not_encodable henc ⟨some live, true, s.main, s.backups⟩ shared
      rw [heq] at hfail
      cases hfail
    | true =>
      rw [save_of_encodable henc, written_of_live] at heq
      exact (Prod.mk.inj heq).1.symm
  rcases edit_cases p s e with ⟨-, heq⟩ | ⟨c, hc, ⟨-, heq⟩ | ⟨c', hverdict, heq⟩ | ⟨-, heq⟩⟩
  · cases (Prod.mk.inj (heq.symm.trans h)).2
  · exact ⟨c, _, hc, handle_version p c e, hsave hc _ (heq.symm.trans h)⟩
  · exact ⟨c, c', hc, (handle_saveNew hverdict).2, hsave hc _ (heq.symm.trans h)⟩
  · cases (Prod.mk.inj (heq.symm.trans h)).2

theorem handle_edit (c : GatewayConfig) (call : Call) (body : Json) :
    handle p c (call.edit body) = withModel c call.model (call.work p body) := by
  cases call <;> rfl

/-! ### Serial edits -/

theorem serial_concat {s s' s'' : Store} {es : List Edit} {e : Edit}
    (h : serial p s es = some s') (he : s'.edit p e = (s'', true)) :
    serial p s (es ++ [e]) = some s'' := by
  induction es generalizing s with
  | nil =>
    obtain rfl := Option.some.inj h
    simp only [List.nil_append, serial, he]
  | cons e' es ih =>
    rw [List.cons_append]
    unfold serial at h ⊢
    split at h
    · exact ih h
    · cases h

/-- Every edit of a series counts the version up by one. -/
theorem version_of_serial {s s' : Store} {es : List Edit} (h : serial p s es = some s')
    {c : GatewayConfig} (hc : s.live = some c) (hfresh : s.fresh = true) :
    ∃ c', s'.live = some c' ∧ c'.version = c.version + es.length := by
  induction es generalizing s c with
  | nil =>
    obtain rfl := Option.some.inj h
    exact ⟨c, hc, by simp⟩
  | cons e es ih =>
    unfold serial at h
    split at h
    · next s₁ he =>
      obtain ⟨c₁, c', hc₁, hversion, rfl⟩ := edit_eq_true he
      obtain rfl : c = c₁ := by simpa [Store.current, hc, hfresh] using hc₁
      obtain ⟨c'', hc'', hlength⟩ := ih h (c := c'.bump) rfl rfl
      refine ⟨c'', hc'', ?_⟩
      have hbump : c'.bump.version = c'.version + 1 := rfl
      rw [hlength, hbump, hversion, List.length_cons]
      push_cast
      ring
    · cases h

/-! ### While the live object is held -/

theorem current_store {t : Shared} {c : GatewayConfig} (h : t.objects[t.live]? = some c) :
    t.store.current p = some c := by
  simp [Store.current, Shared.store, h]

theorem lt_of_getElem? {α : Type} {l : List α} {i : ℕ} {a : α} (h : l[i]? = some a) : i < l.length :=
  (List.getElem?_eq_some_iff.1 h).1

/-- **One step.** A handler that still holds the live object and its model does to the store what
the edit does in one step. -/
theorem serial_step {s : Store} {t t' : Shared} {i : Turn} (h : serial p s t.saved = some t.store)
    (hi : t.Current i) (hstep : t.step p i = some t') : serial p s t'.saved = some t'.store := by
  cases i with
  | arrive call =>
    obtain ⟨w, rfl⟩ := step_arrive hstep
    exact h
  | resume place body =>
    obtain ⟨w, c, m, m', hw, hc, hm, hwork, hwrite⟩ := step_resume hstep
    obtain ⟨hholds, hmodel⟩ := hi w hw c hc
    have hlive : t.objects[t.live]? = some c := hholds ▸ hc
    obtain ⟨henc, hsaved⟩ := write_eq_some hwrite
    have hhandle : handle p c (w.call.edit body) =
        ⟨{ c with models := c.models.set w.model m' }, .save⟩ := by
      rw [handle_edit, withModel, hmodel]
      simp only [hm, hwork]
    have hstore := store_of_write hwrite (lt_of_getElem? hc)
    rw [hstore, hsaved]
    exact serial_concat h (edit_of_save (current_store hlive) hhandle henc)
  | put body =>
    obtain ⟨c, c', hc, hverdict, hwrite⟩ := step_put hstep
    obtain ⟨henc, hsaved⟩ := write_eq_some hwrite
    have hlt := lt_of_getElem? hc
    have hstore := store_of_write hwrite (by simp)
    have hsame : ({ t with objects := t.objects ++ [c'] } : Shared).store = t.store := by
      simp [Shared.store, List.getElem?_append_left hlt]
    rw [hstore, hsame, hsaved]
    exact serial_concat h (edit_of_saveNew (current_store hc) hverdict henc)

/-- An invariant of a run of successful requests, from what one step does. -/
theorem run_invariant {P : Option Shared → Turn → Prop} {I : Shared → Prop} {t₀ : Shared}
    (start : I t₀)
    (step : ∀ t t' i, I t → P (some t) i → t.step p i = some t' → I t')
    {steps : List Turn} (h : Runs.Every (Shared.next p) (fun _ ↦ P) (some t₀) steps) {t : Shared}
    (hrun : Runs.exec (Shared.next p) (some t₀) steps = some t) : I t := by
  refine Runs.exec_invariant (fun _ o ↦ ∀ t, o = some t → I t) ?_ ?_ h t hrun
  · rintro t heq
    exact Option.some.inj heq ▸ start
  · rintro past o i hinv hi t' heq
    obtain ⟨t, rfl, hstep⟩ := Option.bind_eq_some_iff.1 heq
    exact step t t' i (hinv t rfl) hi hstep

/-! ### After an object that was replaced is saved -/

/-- No object has a higher version than the live one could have: `v` at the start, and one more for
each save. One that is not live is behind. -/
structure Shared.Keeps (v : ℤ) (t : Shared) : Prop where
  le : ∀ (k : ℕ) (c : GatewayConfig), t.objects[k]? = some c → c.version ≤ v + t.saved.length
  lt : ∀ (k : ℕ) (c : GatewayConfig), k ≠ t.live → t.objects[k]? = some c →
    c.version < v + t.saved.length

/-- All objects are behind. -/
def Shared.Lags (v : ℤ) (t : Shared) : Prop :=
  ∀ (k : ℕ) (c : GatewayConfig), t.objects[k]? = some c → c.version < v + t.saved.length

/-- What a save does to the versions. -/
theorem version_of_write {t t' : Shared} {object : ℕ} {c : GatewayConfig} {e : Edit}
    (h : t.write object c e = some t') {k : ℕ} {d : GatewayConfig} (hd : t'.objects[k]? = some d) :
    (k = object ∧ d.version = c.version + 1) ∨ (k ≠ object ∧ t.objects[k]? = some d) := by
  obtain ⟨-, rfl⟩ := write_eq_some h
  by_cases hk : k = object
  · subst hk
    have hlt := lt_of_getElem? hd
    simp only [List.length_set] at hlt
    simp only [List.getElem?_set_self hlt, Option.some.injEq] at hd
    exact .inl ⟨rfl, hd ▸ rfl⟩
  · simp only [List.getElem?_set_ne (Ne.symm hk)] at hd
    exact .inr ⟨hk, hd⟩

theorem saved_of_write {t t' : Shared} {object : ℕ} {c : GatewayConfig} {e : Edit}
    (h : t.write object c e = some t') :
    t'.live = object ∧ (t'.saved.length : ℤ) = t.saved.length + 1 := by
  obtain ⟨-, rfl⟩ := write_eq_some h
  simp

/-- The object that is saved catches up by one, and falls back by one against the saves. -/
theorem keeps_write {v : ℤ} {t t' : Shared} {object : ℕ} {c : GatewayConfig} {e : Edit}
    (h : t.write object c e = some t') (hc : c.version ≤ v + t.saved.length)
    (hothers : ∀ k (d : GatewayConfig), k ≠ object → t.objects[k]? = some d →
      d.version ≤ v + t.saved.length) :
    t'.Keeps v := by
  obtain ⟨hlive, hlength⟩ := saved_of_write h
  constructor
  · intro k d hd
    rcases version_of_write h hd with ⟨-, hversion⟩ | ⟨hk, hd⟩
    · omega
    · have := hothers k d hk hd
      omega
  · intro k d hk hd
    rcases version_of_write h hd with ⟨rfl, -⟩ | ⟨hk, hd⟩
    · exact absurd hlive.symm hk
    · have := hothers k d hk hd
      omega

theorem lags_write {v : ℤ} {t t' : Shared} {object : ℕ} {c : GatewayConfig} {e : Edit}
    (h : t.write object c e = some t') (hc : c.version < v + t.saved.length)
    (hothers : ∀ k (d : GatewayConfig), k ≠ object → t.objects[k]? = some d →
      d.version ≤ v + t.saved.length) :
    t'.Lags v := by
  obtain ⟨-, hlength⟩ := saved_of_write h
  intro k d hd
  rcases version_of_write h hd with ⟨-, hversion⟩ | ⟨hk, hd⟩
  · omega
  · have := hothers k d hk hd
    omega

/-- The objects next to a new one. -/
theorem getElem?_of_ne_length {α : Type} {l : List α} {a b : α} {k : ℕ} (hk : k ≠ l.length)
    (h : (l ++ [a])[k]? = some b) : l[k]? = some b := by
  have hlt := lt_of_getElem? h
  rw [List.length_append, List.length_singleton] at hlt
  rwa [List.getElem?_append_left (by omega)] at h

theorem keeps_step {v : ℤ} {t t' : Shared} {i : Turn} (h : t.Keeps v)
    (hstep : t.step p i = some t') : t'.Keeps v := by
  cases i with
  | arrive call =>
    obtain ⟨w, rfl⟩ := step_arrive hstep
    exact ⟨h.le, h.lt⟩
  | resume place body =>
    obtain ⟨w, c, m, m', -, hc, -, -, hwrite⟩ := step_resume hstep
    exact keeps_write hwrite (h.le _ c hc) fun k d _ hd ↦ h.le k d hd
  | put body =>
    obtain ⟨c, c', hc, hverdict, hwrite⟩ := step_put hstep
    refine keeps_write hwrite ?_ fun k d hk hd ↦ h.le k d (getElem?_of_ne_length hk hd)
    rw [putConfig_version hverdict]
    exact h.le _ c hc

theorem lags_step {v : ℤ} {t t' : Shared} {i : Turn} (h : t.Lags v)
    (hstep : t.step p i = some t') : t'.Lags v := by
  cases i with
  | arrive call =>
    obtain ⟨w, rfl⟩ := step_arrive hstep
    exact h
  | resume place body =>
    obtain ⟨w, c, m, m', -, hc, -, -, hwrite⟩ := step_resume hstep
    exact lags_write hwrite (h _ c hc) fun k d _ hd ↦ (h k d hd).le
  | put body =>
    obtain ⟨c, c', hc, hverdict, hwrite⟩ := step_put hstep
    refine lags_write hwrite ?_ fun k d hk hd ↦ (h k d (getElem?_of_ne_length hk hd)).le
    rw [putConfig_version hverdict]
    exact h _ c hc

/-- **The slip.** A handler that does not hold the live object brings back one that is behind. -/
theorem lags_of_not_holds {v : ℤ} {t t' : Shared} {i : Turn} (h : t.Keeps v) (hi : ¬ t.Holds i)
    (hstep : t.step p i = some t') : t'.Lags v := by
  cases i with
  | arrive call => exact absurd trivial hi
  | resume place body =>
    obtain ⟨w, c, m, m', hw, hc, -, -, hwrite⟩ := step_resume hstep
    have hne : w.object ≠ t.live := fun heq ↦ hi fun w' hw' ↦ by
      rwa [← Option.some.inj (hw.symm.trans hw')]
    exact lags_write hwrite (h.lt _ c hne hc) fun k d _ hd ↦ h.le k d hd
  | put body => exact absurd trivial hi

/-! ### Runs of successful requests -/

/-- Every step of the run that is taken satisfies `P` of the process before it. -/
def EveryStep (p : Pydantic) (P : Shared → Turn → Prop) (t₀ : Shared) (steps : List Turn) : Prop :=
  Runs.Every (Shared.next p) (fun _ o i ↦ ∀ t ∈ o, P t i) (some t₀) steps

/-- No update is lost: the edits that have answered success, applied to the configuration at the
start in the order of their saves, all succeed, and give the live configuration and the files. -/
def NoLostUpdate (p : Pydantic) (t₀ t : Shared) : Prop :=
  serial p t₀.store t.saved = some t.store

theorem exec_none (steps : List Turn) : Runs.exec (Shared.next p) none steps = none := by
  induction steps with
  | nil => rfl
  | cons i steps ih => exact ih

/-- What holds after a step that is taken, and is kept by all, holds at the end. -/
theorem exec_of_step {I : Shared → Prop} {t₀ t t₁ : Shared} {past future : List Turn} {i : Turn}
    (hpast : Runs.exec (Shared.next p) (some t₀) past = some t₁)
    (hi : ∀ t', t₁.step p i = some t' → I t')
    (step : ∀ t t' i, I t → t.step p i = some t' → I t')
    (hrun : Runs.exec (Shared.next p) (some t₀) (past ++ i :: future) = some t) : I t := by
  rw [Runs.exec_append, hpast] at hrun
  change Runs.exec (Shared.next p) (t₁.step p i) future = some t at hrun
  rcases hstep : t₁.step p i with - | t'
  · rw [hstep, exec_none] at hrun
    cases hrun
  · rw [hstep] at hrun
    exact run_invariant (P := fun _ _ ↦ True) (hi t' hstep) (fun t t' i ht _ ↦ step t t' i ht)
      (fun _ _ _ _ ↦ trivial) hrun

theorem keeps_start (c : GatewayConfig) (main : Option File) (backups : ℕ → Option File) :
    (Shared.start c main backups).Keeps c.version := by
  have hzero : ∀ k d, (Shared.start c main backups).objects[k]? = some d → k = 0 ∧ d = c := by
    rintro (- | k) d hd
    · exact ⟨rfl, (Option.some.inj hd).symm⟩
    · cases hd
  constructor
  · intro k d hd
    obtain ⟨-, rfl⟩ := hzero k d hd
    simp [Shared.start]
  · intro k d hk hd
    exact absurd (hzero k d hd).1 hk

/-- A process in which all objects are behind has lost an update. -/
theorem not_noLostUpdate_of_lags {c : GatewayConfig} {main : Option File}
    {backups : ℕ → Option File} {t : Shared} (h : t.Lags c.version) :
    ¬ NoLostUpdate p (.start c main backups) t := by
  intro hserial
  obtain ⟨c', hc', hversion⟩ := version_of_serial hserial (c := c) rfl rfl
  have hlt := h _ c' hc'
  omega

/-- **No admin update is lost** in a run of successful requests whose waiting handlers, when they are
resumed, still hold the live object and the model their id names. And in a run that loses none, they
all hold the live object. -/
theorem noLostUpdate_of_current (p : Pydantic) (c : GatewayConfig) (main : Option File)
    (backups : ℕ → Option File) (steps : List Turn) (t : Shared)
    (hrun : Runs.exec (Shared.next p) (some (.start c main backups)) steps = some t) :
    (EveryStep p Shared.Current (.start c main backups) steps →
        NoLostUpdate p (.start c main backups) t) ∧
      (NoLostUpdate p (.start c main backups) t →
        EveryStep p Shared.Holds (.start c main backups) steps) := by
  constructor
  · intro hcurrent
    exact run_invariant (P := fun o i ↦ ∀ t ∈ o, t.Current i)
      (I := fun t ↦ serial p (Shared.start c main backups).store t.saved = some t.store) rfl
      (fun t t' i hinv hi hstep ↦ serial_step hinv (hi t rfl) hstep) hcurrent hrun
  · rintro hserial past i future rfl t₁ hpast
    by_contra hholds
    have hkeeps : t₁.Keeps c.version := run_invariant (P := fun _ _ ↦ True)
      (keeps_start c main backups) (fun t t' i ht _ ↦ keeps_step ht) (fun _ _ _ _ ↦ trivial) hpast
    have hlags : t.Lags c.version := exec_of_step hpast
      (fun t' hstep ↦ lags_of_not_holds hkeeps hholds hstep) (fun t t' i ↦ lags_step) hrun
    exact not_noLostUpdate_of_lags hlags hserial

end Runs

/-- A new description, and a new backend. -/
def describeSample : Json :=
  .obj [(py "description", .str (py "new"))]

def backendSample : Json :=
  .obj [(py "provider", .str (py "a")), (py "model", .str (py "x"))]

/-- Two handlers that wait at the same time, and are resumed in the other order. -/
theorem noLostUpdate_sample :
    ∃ t, Runs.exec (Shared.next .strict) (some (.start oneModel none fun _ ↦ none))
        [.arrive (.updateModel (py "m")), .arrive (.addBackend (py "m")), .resume 1 backendSample,
          .resume 0 describeSample] = some t ∧
      NoLostUpdate .strict (.start oneModel none fun _ ↦ none) t := by
  obtain ⟨t, hrun⟩ : ∃ t, Runs.exec (Shared.next .strict)
      (some (.start oneModel none fun _ ↦ none))
      [.arrive (.updateModel (py "m")), .arrive (.addBackend (py "m")), .resume 1 backendSample,
        .resume 0 describeSample] = some t := Option.isSome_iff_exists.1 (by decide +kernel)
  refine ⟨t, hrun, (noLostUpdate_of_current .strict oneModel none _ _ t hrun).1 ?_⟩
  show Runs.Every _ _ _ ([Turn.arrive _, Turn.arrive _, Turn.resume 1 _] ++ [Turn.resume 0 _])
  refine Runs.every_concat_iff.2 ⟨?_, by decide +kernel⟩
  show Runs.Every _ _ _ ([Turn.arrive _, Turn.arrive _] ++ [Turn.resume 1 _])
  refine Runs.every_concat_iff.2 ⟨?_, by decide +kernel⟩
  rintro past i future heq t -
  have hmem : i ∈ [Turn.arrive (.updateModel (py "m")), .arrive (.addBackend (py "m"))] := by
    rw [heq]
    simp
  simp only [List.mem_cons, List.not_mem_nil, or_false] at hmem
  rcases hmem with rfl | rfl <;> trivial

/-- A configuration with one more model. -/
def putSample : Json :=
  .obj [(py "models", .arr [.obj [(py "id", .str (py "m"))], .obj [(py "id", .str (py "n"))]])]

/-- **An update that is lost.** While an edit of model `m` waits for its body, `put_config` adds the
model `n` and answers success; the edit then saves the object it has loaded, which has no `n`. -/
theorem not_noLostUpdate :
    ∃ t, Runs.exec (Shared.next .strict) (some (.start oneModel none fun _ ↦ none))
        [.arrive (.updateModel (py "m")), .put putSample, .resume 0 describeSample] = some t ∧
      t.store.live.map (fun c ↦ c.models.map ModelConfig.id) = some [py "m"] ∧
      ¬ NoLostUpdate .strict (.start oneModel none fun _ ↦ none) t := by
  have hrun : ((Runs.exec (Shared.next .strict) (some (.start oneModel none fun _ ↦ none))
      [.arrive (.updateModel (py "m")), .put putSample, .resume 0 describeSample]).map fun t ↦
        decide (t.store.live.map (fun c ↦ c.models.map ModelConfig.id) = some [py "m"] ∧
          ((serial .strict (Shared.start oneModel none fun _ ↦ none).store t.saved).bind fun s ↦
            s.live.map fun c ↦ c.models.map ModelConfig.id) ≠ some [py "m"])) = some true := by
    decide +kernel
  obtain ⟨t, ht, hlives⟩ := Option.map_eq_some_iff.1 hrun
  obtain ⟨hlive, hserial⟩ := of_decide_eq_true hlives
  refine ⟨t, ht, hlive, fun h ↦ hserial ?_⟩
  rw [show serial .strict _ t.saved = some t.store from h]
  exact hlive

end LocalGateway
