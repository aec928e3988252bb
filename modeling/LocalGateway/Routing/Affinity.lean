import LocalGateway.Routing.Requests

/-!
# What the affinity fingerprint tells apart

`cache.fingerprint` puts the system texts and the turns that were sent into one text and hashes it. Two texts with
different digests of what they cover are told apart unless what is put together can be read in two ways: a turn is
written `role:text`, like a system text may be, and the pieces are joined by a separator that they may contain.

* `pieces_inj`: from the pieces the prefix can be read again (`ToldApart`).
* `intercalate_inj`: so can the pieces from the joined text.
* `separates_covered`: bodies that differ in what is covered have different fingerprints.
-/

namespace LocalGateway

open Py Json RespCache

section Affinity

variable (lib : Primitives)

/-! ### The parts of a body -/

/-- The messages of a body, if it has a list of them. -/
def bodyMessages (body : PyDict) : List Json :=
  attrList body (py "messages")

/-- The system texts of a body. -/
def systemTexts (body : PyDict) : List PyStr :=
  (match get? body (py "system") with
    | some (.str s) => [s]
    | _ => []) ++ ((bodyMessages body).filter (hasRole "system")).map (msgText lib)

/-- The turns of the conversation. -/
def turns (body : PyDict) : List Json :=
  (bodyMessages body).filter fun m ↦ !hasRole "system" m

/-- The turns before the final one of the user. -/
def priorTurns (body : PyDict) : List Json :=
  if ((turns body).getLast?.map (hasRole "user")).getD false then (turns body).dropLast else turns body

/-- A turn as its role and its text. -/
def turnPair (m : Json) : PyStr × PyStr :=
  (roleText lib m, msgText lib m)

/-- The prefix that a provider can have cached. -/
def cacheablePrefix (body : PyDict) : List PyStr × List (PyStr × PyStr) :=
  (systemTexts lib body, (priorTurns body).map (turnPair lib))

/-- What the fingerprint covers: where there is no turn before the final one, the whole conversation. -/
def coveredPrefix (body : PyDict) : List PyStr × List (PyStr × PyStr) :=
  (systemTexts lib body, (sentMessages (turns body)).map (turnPair lib))

/-- With a turn before the final one, what is covered is what can be cached. -/
theorem coveredPrefix_of_priorTurns {body : PyDict} (h : priorTurns body ≠ []) :
    coveredPrefix lib body = cacheablePrefix lib body := by
  have hsent : sentMessages (turns body) = priorTurns body := if_neg h
  rw [coveredPrefix, cacheablePrefix, hsent]

/-- A turn as a piece of the text that is hashed. -/
def turnPiece (turn : PyStr × PyStr) : PyStr :=
  turn.1 ++ py ":" ++ truncateText lib turn.2

/-- The pieces of a prefix. -/
def piecesOf (p : List PyStr × List (PyStr × PyStr)) : List PyStr :=
  p.1.map (truncateText lib) ++ p.2.map (turnPiece lib)

/-- The text that is hashed. -/
def blobOf (p : List PyStr × List (PyStr × PyStr)) : PyStr :=
  [10, 0, 10].intercalate (piecesOf lib p)

/-- A fingerprint is the digest of what it covers, which is not nothing. -/
theorem fingerprint_eq_some {body : PyDict} {key : PyStr} (h : fingerprint lib body = some key) :
    key = (hexdigest (lib.sha1 (encodeReplace (blobOf lib (coveredPrefix lib body))))).take 16 ∧
      piecesOf lib (coveredPrefix lib body) ≠ [] := by
  have hmessages : ∃ messages, get? body (py "messages") = some (.arr messages) := by
    unfold fingerprint at h
    split at h
    · exact ⟨_, ‹_›⟩
    · cases h
  obtain ⟨messages, hmessages⟩ := hmessages
  have hfingerprint : fingerprint lib body =
      if messages = [] then none
      else if !(systemTexts lib body ++ (sentMessages (turns body)).map (msgText lib)).any (fun s ↦ strip s ≠ []) then
        none
      else
        some ((hexdigest (lib.sha1 (encodeReplace (blobOf lib (coveredPrefix lib body))))).take 16) := by
    simp only [fingerprint, systemTexts, turns, bodyMessages, attrList, hmessages, blobOf, piecesOf, coveredPrefix,
      List.map_map]
    rfl
  rw [hfingerprint] at h
  split_ifs at h with hempty hcontent
  refine ⟨(Option.some.inj h).symm, fun hnil ↦ hcontent ?_⟩
  obtain ⟨hsystem, hturns⟩ := List.append_eq_nil_iff.1 hnil
  rw [List.map_eq_nil_iff] at hsystem hturns
  have hsystem : systemTexts lib body = [] := hsystem
  rw [hsystem, List.map_eq_nil_iff.1 hturns]
  rfl

/-! ### What can be read again -/

/-- Text that encoding keeps, and that has no NUL character. -/
def IsCleanText (s : PyStr) : Prop :=
  ∀ c ∈ s, IsScalar c ∧ c ≠ 0

instance decidableIsCleanText (s : PyStr) : Decidable (IsCleanText s) :=
  inferInstanceAs (Decidable (∀ c ∈ s, _))

/-- A prefix from whose pieces it can be read again: the texts are clean, and no role has a colon. -/
structure Readable (p : List PyStr × List (PyStr × PyStr)) : Prop where
  system : ∀ s ∈ p.1, IsCleanText s
  roles : ∀ turn ∈ p.2, IsCleanText turn.1 ∧ 58 ∉ turn.1
  texts : ∀ turn ∈ p.2, IsCleanText turn.2

/-- No system text of the one prefix reads like a turn of the other. -/
def SystemApart (p q : List PyStr × List (PyStr × PyStr)) : Prop :=
  ∀ s ∈ p.1, ∀ turn ∈ q.2, startsWith (truncateText lib s) (turn.1 ++ py ":") = false

instance decidableSystemApart (p q : List PyStr × List (PyStr × PyStr)) : Decidable (SystemApart lib p q) :=
  inferInstanceAs (Decidable (∀ s ∈ p.1, _))

/-- Two prefixes that can be told apart by their pieces. -/
structure ToldApart (p q : List PyStr × List (PyStr × PyStr)) : Prop where
  left : Readable p
  right : Readable q
  leftSystem : SystemApart lib p q
  rightSystem : SystemApart lib q p

/-- The texts of a prefix that are hashed for their own sake. -/
def hashedTexts (p : List PyStr × List (PyStr × PyStr)) : List PyStr :=
  p.1 ++ p.2.map Prod.snd

/-- The digests that are taken for two prefixes do not collide. -/
structure CollisionFree (p q : List PyStr × List (PyStr × PyStr)) : Prop where
  texts : ∀ s ∈ hashedTexts p, ∀ t ∈ hashedTexts q,
    (hexdigest (lib.sha1 (encodeReplace s))).take 10 = (hexdigest (lib.sha1 (encodeReplace t))).take 10 →
      encodeReplace s = encodeReplace t
  blobs : (hexdigest (lib.sha1 (encodeReplace (blobOf lib p)))).take 16 =
      (hexdigest (lib.sha1 (encodeReplace (blobOf lib q)))).take 16 →
    encodeReplace (blobOf lib p) = encodeReplace (blobOf lib q)

variable {lib}

theorem utf8Encode_eq_encodeReplace {s : PyStr} (hs : ∀ c ∈ s, IsScalar c) : utf8Encode s = some (encodeReplace s) := by
  induction s with
  | nil => rfl
  | cons c s ih =>
    have hc : IsScalar c := hs c List.mem_cons_self
    rw [utf8Encode_cons s hc, ih fun d hd ↦ hs d (List.mem_cons_of_mem c hd), Option.map_some, encodeReplace,
      encodeReplace, List.flatMap_cons, if_pos hc]

/-- Encoding keeps clean texts apart. -/
theorem encodeReplace_inj {s t : PyStr} (hs : ∀ c ∈ s, IsScalar c) (ht : ∀ c ∈ t, IsScalar c)
    (h : encodeReplace s = encodeReplace t) : s = t := by
  rw [← utf8Decode_encode (utf8Encode_eq_encodeReplace hs), h, utf8Decode_encode (utf8Encode_eq_encodeReplace ht)]

/-- The pieces can be read from the joined text. -/
theorem intercalate_inj {ps qs : List PyStr} (hps : ∀ p ∈ ps, 0 ∉ p) (hqs : ∀ q ∈ qs, 0 ∉ q) (hp : ps ≠ [])
    (hq : qs ≠ []) (h : ([10, 0, 10] : PyStr).intercalate ps = ([10, 0, 10] : PyStr).intercalate qs) : ps = qs := by
  induction ps generalizing qs with
  | nil => exact absurd rfl hp
  | cons p ps ih =>
    rcases qs with - | ⟨q, qs⟩
    · exact absurd rfl hq
    have hp0 : 0 ∉ p := hps p List.mem_cons_self
    have hq0 : 0 ∉ q := hqs q List.mem_cons_self
    rcases ps with - | ⟨p', ps⟩ <;> rcases qs with - | ⟨q', qs⟩
    · simpa using h
    · -- only one of the two has a separator
      rw [List.intercalate_singleton, List.intercalate_cons_cons] at h
      exact absurd (show 0 ∈ p by rw [h]; simp) hp0
    · rw [List.intercalate_singleton, List.intercalate_cons_cons] at h
      exact absurd (show 0 ∈ q by rw [← h]; simp) hq0
    · rw [List.intercalate_cons_cons, List.intercalate_cons_cons] at h
      have hcut : ∀ r s : PyStr, r ++ [10, 0, 10] ++ s = (r ++ [10]) ++ 0 :: (10 :: s) := fun r s ↦ by simp
      rw [hcut, hcut] at h
      obtain ⟨hpq, hrest⟩ := Lines.append_cons_inj (by simp [hp0]) (by simp [hq0]) h
      rw [List.append_cancel_right hpq, ih (fun r hr ↦ hps r (List.mem_cons_of_mem _ hr))
        (fun r hr ↦ hqs r (List.mem_cons_of_mem _ hr)) (List.cons_ne_nil _ _) (List.cons_ne_nil _ _)
        (List.cons.inj hrest).2]

/-! ### Truncated texts -/

theorem IsCleanText.append {s t : PyStr} (hs : IsCleanText s) (ht : IsCleanText t) : IsCleanText (s ++ t) :=
  fun c hc ↦ (List.mem_append.1 hc).elim (hs c) (ht c)

theorem IsCleanText.sublist {s t : PyStr} (ht : IsCleanText t) (h : s.Sublist t) : IsCleanText s :=
  fun c hc ↦ ht c (h.subset hc)

theorem isCleanText_natRepr (n : ℕ) : IsCleanText (natRepr n) := by
  intro c hc
  have hdigit := natRepr_digits n c hc
  simp only [isDigit, Bool.and_eq_true, decide_eq_true_eq] at hdigit
  exact ⟨.inl (by omega), by omega⟩

theorem isCleanText_hexdigest (digest : PyBytes) : IsCleanText (hexdigest digest) := by
  intro c hc
  obtain ⟨x, -, hx⟩ := List.mem_flatMap.1 hc
  have hx' := x.toNat_lt
  have hdigit : ∃ n < 16, c = hexDigit n := by
    rcases List.mem_pair.1 hx with rfl | rfl
    · exact ⟨_, by omega, rfl⟩
    · exact ⟨_, Nat.mod_lt _ (by decide), rfl⟩
  obtain ⟨n, hn, rfl⟩ := hdigit
  unfold hexDigit IsScalar
  split <;> omega

variable (lib) in
/-- Truncating keeps a text clean. -/
theorem isCleanText_truncateText {s : PyStr} (hs : IsCleanText s) : IsCleanText (truncateText lib s) := by
  unfold truncateText
  split_ifs with hlong
  · have hmark : IsCleanText (py "…[") := by
      unfold IsCleanText
      decide
    have hcolon : IsCleanText (py ":") := by
      unfold IsCleanText
      decide
    have hclose : IsCleanText (py "]") := by
      unfold IsCleanText
      decide
    exact ((((hs.sublist (List.take_sublist _ _)).append hmark).append (isCleanText_natRepr _)).append hcolon).append
      ((isCleanText_hexdigest _).sublist (List.take_sublist _ _)) |>.append hclose
  · exact hs

variable (lib) in
/-- What is cut is longer than what is kept whole. -/
theorem length_truncateText_of_lt {s : PyStr} (h : truncateLength < s.length) :
    truncateLength < (truncateText lib s).length := by
  have hmark : 0 < (py "…[").length := by decide
  rw [truncateText, if_pos h]
  simp only [List.length_append, List.length_take, Nat.min_eq_left h.le]
  omega

/-- **Truncated texts are told apart**: a text that is cut carries its length and a digest of the whole. -/
theorem truncateText_inj {s t : PyStr} (hs : IsCleanText s) (ht : IsCleanText t)
    (hcollision : (hexdigest (lib.sha1 (encodeReplace s))).take 10 = (hexdigest (lib.sha1 (encodeReplace t))).take 10 →
      encodeReplace s = encodeReplace t)
    (h : truncateText lib s = truncateText lib t) : s = t := by
  by_cases hslong : truncateLength < s.length <;> by_cases htlong : truncateLength < t.length
  · rw [truncateText, truncateText, if_pos hslong, if_pos htlong] at h
    simp only [List.append_assoc] at h
    have hkept : (s.take truncateLength).length = (t.take truncateLength).length := by
      rw [List.length_take, List.length_take, Nat.min_eq_left hslong.le, Nat.min_eq_left htlong.le]
    have hmark := (List.append_inj h hkept).2
    rw [List.append_cancel_left_eq] at hmark
    have hnocolon : ∀ n, 58 ∉ natRepr n := fun n hmem ↦ absurd (natRepr_digits n 58 hmem) (by decide)
    have hdigest := (Lines.append_cons_inj (hnocolon _) (hnocolon _) hmark).2
    exact encodeReplace_inj (fun c hc ↦ (hs c hc).1) (fun c hc ↦ (ht c hc).1)
      (hcollision (List.append_cancel_right hdigest))
  · have hlength := length_truncateText_of_lt lib hslong
    rw [h, truncateText, if_neg htlong] at hlength
    exact absurd hlength htlong
  · have hlength := length_truncateText_of_lt lib htlong
    rw [← h, truncateText, if_neg hslong] at hlength
    exact absurd hlength hslong
  · rwa [truncateText, truncateText, if_neg hslong, if_neg htlong] at h

/-! ### The pieces -/

/-- Lists whose members are told apart by what they are written as. -/
theorem map_inj_of_forall {α β : Type*} {f : α → β} {l l' : List α}
    (hf : ∀ a ∈ l, ∀ a' ∈ l', f a = f a' → a = a') (h : l.map f = l'.map f) : l = l' := by
  induction l generalizing l' with
  | nil => exact (List.map_eq_nil_iff.1 h.symm).symm
  | cons a l ih =>
    rcases l' with - | ⟨a', l'⟩
    · cases h
    obtain ⟨hhead, htail⟩ := List.cons.inj h
    rw [hf a List.mem_cons_self a' List.mem_cons_self hhead,
      ih (fun b hb b' hb' ↦ hf b (List.mem_cons_of_mem a hb) b' (List.mem_cons_of_mem a' hb')) htail]

/-- The pieces of a readable prefix are clean. -/
theorem Readable.pieces_clean {p : List PyStr × List (PyStr × PyStr)} (hp : Readable p) :
    ∀ piece ∈ piecesOf lib p, IsCleanText piece := by
  intro piece hpiece
  have hcolon : IsCleanText (py ":") := by decide
  rcases List.mem_append.1 hpiece with hsystem | hturn
  · obtain ⟨s, hs, rfl⟩ := List.mem_map.1 hsystem
    exact isCleanText_truncateText lib (hp.system s hs)
  · obtain ⟨turn, hmem, rfl⟩ := List.mem_map.1 hturn
    exact ((hp.roles turn hmem).1.append hcolon).append (isCleanText_truncateText lib (hp.texts turn hmem))

/-- A turn can be read from its piece, whose role ends at the first colon. -/
theorem turnPiece_inj {turn turn' : PyStr × PyStr} (hrole : 58 ∉ turn.1) (hrole' : 58 ∉ turn'.1)
    (htext : truncateText lib turn.2 = truncateText lib turn'.2 → turn.2 = turn'.2)
    (h : turnPiece lib turn = turnPiece lib turn') : turn = turn' := by
  simp only [turnPiece, List.append_assoc] at h
  obtain ⟨hfst, hsnd⟩ := Lines.append_cons_inj hrole hrole' h
  exact Prod.ext hfst (htext hsnd)

theorem startsWith_turnPiece (turn : PyStr × PyStr) :
    startsWith (turnPiece lib turn) (turn.1 ++ py ":") = true :=
  List.isPrefixOf_iff_prefix.2 (List.prefix_append _ _)

/-- Where no system text reads like a turn, the system texts end at the same place. -/
theorem systemApart_split {p q : List PyStr × List (PyStr × PyStr)} (hapart : SystemApart lib p q)
    {more : List PyStr} (hsystem : p.1.map (truncateText lib) = q.1.map (truncateText lib) ++ more)
    (hturns : q.2.map (turnPiece lib) = more ++ p.2.map (turnPiece lib)) : more = [] := by
  rcases more with - | ⟨piece, more⟩
  · rfl
  have hleft : piece ∈ p.1.map (truncateText lib) := by
    rw [hsystem]
    exact List.mem_append_right _ List.mem_cons_self
  have hright : piece ∈ q.2.map (turnPiece lib) := by
    rw [hturns]
    exact List.mem_cons_self
  obtain ⟨s, hs, rfl⟩ := List.mem_map.1 hleft
  obtain ⟨turn, hturn, hpiece⟩ := List.mem_map.1 hright
  have hfalse := hapart s hs turn hturn
  rw [← hpiece, startsWith_turnPiece] at hfalse
  exact absurd hfalse Bool.true_eq_false_eq_False

/-- **A prefix can be read from its pieces**. -/
theorem pieces_inj {p q : List PyStr × List (PyStr × PyStr)} (happart : ToldApart lib p q)
    (hcollision : CollisionFree lib p q) (h : piecesOf lib p = piecesOf lib q) : p = q := by
  have hsplit : p.1.map (truncateText lib) = q.1.map (truncateText lib) ∧
      p.2.map (turnPiece lib) = q.2.map (turnPiece lib) := by
    rcases List.append_eq_append_iff.1 h with ⟨more, hsystem, hturns⟩ | ⟨more, hsystem, hturns⟩
    · obtain rfl := systemApart_split happart.rightSystem hsystem hturns
      exact ⟨by simpa using hsystem.symm, by simpa using hturns⟩
    · obtain rfl := systemApart_split happart.leftSystem hsystem hturns
      exact ⟨by simpa using hsystem, by simpa using hturns.symm⟩
  refine Prod.ext (map_inj_of_forall ?_ hsplit.1) (map_inj_of_forall ?_ hsplit.2)
  · intro s hs t ht
    exact truncateText_inj (happart.left.system s hs) (happart.right.system t ht)
      (hcollision.texts s (List.mem_append_left _ hs) t (List.mem_append_left _ ht))
  · intro turn hturn turn' hturn'
    exact turnPiece_inj (happart.left.roles turn hturn).2 (happart.right.roles turn' hturn').2
      (truncateText_inj (happart.left.texts turn hturn) (happart.right.texts turn' hturn')
        (hcollision.texts _ (List.mem_append_right _ (List.mem_map_of_mem hturn)) _
          (List.mem_append_right _ (List.mem_map_of_mem hturn'))))

/-- The text that is hashed is clean but for its separators. -/
theorem blob_scalar {p : List PyStr × List (PyStr × PyStr)} (hp : Readable p) : ∀ c ∈ blobOf lib p, IsScalar c := by
  have hjoin : ∀ pieces : List PyStr, (∀ piece ∈ pieces, IsCleanText piece) →
      ∀ c ∈ ([10, 0, 10] : PyStr).intercalate pieces, IsScalar c := by
    intro pieces hpieces
    induction pieces with
    | nil => simp
    | cons piece pieces ih =>
      have hpiece : ∀ c ∈ piece, IsScalar c := fun c hc ↦ (hpieces piece List.mem_cons_self c hc).1
      rcases pieces with - | ⟨piece', pieces⟩
      · rwa [List.intercalate_singleton]
      · intro c hc
        rw [List.intercalate_cons_cons, List.mem_append, List.mem_append] at hc
        rcases hc with (hc | hc) | hc
        · exact hpiece c hc
        · have hsep : ∀ c ∈ ([10, 0, 10] : PyStr), IsScalar c := by decide
          exact hsep c hc
        · exact ih (fun r hr ↦ hpieces r (List.mem_cons_of_mem piece hr)) c hc
  exact hjoin _ hp.pieces_clean

/-- **Different prefixes have different fingerprints**: what two fingerprints cover differs, and is told apart by its
pieces, so that with digests that do not collide the fingerprints differ. -/
theorem separates_covered {body₁ body₂ : PyDict} {key₁ key₂ : PyStr}
    (happart : ToldApart lib (coveredPrefix lib body₁) (coveredPrefix lib body₂))
    (hcollision : CollisionFree lib (coveredPrefix lib body₁) (coveredPrefix lib body₂))
    (hcovered : coveredPrefix lib body₁ ≠ coveredPrefix lib body₂) (h₁ : fingerprint lib body₁ = some key₁)
    (h₂ : fingerprint lib body₂ = some key₂) : key₁ ≠ key₂ := by
  obtain ⟨rfl, hpieces₁⟩ := fingerprint_eq_some lib h₁
  obtain ⟨rfl, hpieces₂⟩ := fingerprint_eq_some lib h₂
  intro hkeys
  have hblob : blobOf lib (coveredPrefix lib body₁) = blobOf lib (coveredPrefix lib body₂) :=
    encodeReplace_inj (blob_scalar happart.left) (blob_scalar happart.right) (hcollision.blobs hkeys)
  have hzero : ∀ {p : List PyStr × List (PyStr × PyStr)}, Readable p → ∀ piece ∈ piecesOf lib p, 0 ∉ piece :=
    fun hp piece hpiece hmem ↦ (hp.pieces_clean piece hpiece 0 hmem).2 rfl
  exact hcovered (pieces_inj happart hcollision
    (intercalate_inj (hzero happart.left) (hzero happart.right) hpieces₁ hpieces₂ hblob))

/-- A library whose digest is the text read from its end. -/
def plainDigests : Primitives where
  encode := fun _ ↦ none
  decimal := fun _ ↦ none
  str := fun _ ↦ []
  sha1 := List.reverse

/-- A turn as it stands in a body. -/
def plainTurn (role text : String) : Json :=
  .obj [(py "role", .str (py role)), (py "content", .str (py text))]

/-- A body with a list of turns. -/
def plainBody (messages : List Json) : PyDict :=
  [(py "messages", .arr messages)]

/-- Two conversations whose first turns differ. -/
theorem separates_covered_sample :
    (fingerprint plainDigests (plainBody [plainTurn "system" "s", plainTurn "user" "a", plainTurn "user" "c"])).getD [] ≠
      (fingerprint plainDigests (plainBody [plainTurn "system" "s", plainTurn "user" "b", plainTurn "user" "c"])).getD
        [] := by
  have hfirst : fingerprint plainDigests
      (plainBody [plainTurn "system" "s", plainTurn "user" "a", plainTurn "user" "c"]) = some _ :=
    Option.eq_some_of_isSome (by decide +kernel)
  have hsecond : fingerprint plainDigests
      (plainBody [plainTurn "system" "s", plainTurn "user" "b", plainTurn "user" "c"]) = some _ :=
    Option.eq_some_of_isSome (by decide +kernel)
  rw [hfirst, hsecond]
  refine separates_covered ⟨⟨?_, ?_, ?_⟩, ⟨?_, ?_, ?_⟩, ?_, ?_⟩ ⟨?_, ?_⟩ ?_ hfirst hsecond
  all_goals decide +kernel

/-- **A single turn is covered itself**: a first turn of the user has the fingerprint of a conversation that goes on
from it, of which it is the prefix. -/
theorem not_separates_singleTurn :
    cacheablePrefix plainDigests (plainBody [plainTurn "user" "a"]) ≠
        cacheablePrefix plainDigests (plainBody [plainTurn "user" "a", plainTurn "user" "b"]) ∧
      CollisionFree plainDigests (coveredPrefix plainDigests (plainBody [plainTurn "user" "a"]))
        (coveredPrefix plainDigests (plainBody [plainTurn "user" "a", plainTurn "user" "b"])) ∧
      fingerprint plainDigests (plainBody [plainTurn "user" "a"]) =
        fingerprint plainDigests (plainBody [plainTurn "user" "a", plainTurn "user" "b"]) ∧
      (fingerprint plainDigests (plainBody [plainTurn "user" "a"])).isSome := by
  refine ⟨by decide +kernel, ⟨?_, fun _ ↦ ?_⟩, by decide +kernel, by decide +kernel⟩
  · decide +kernel
  · decide +kernel

end Affinity

end LocalGateway
