import LamTo.Library.JsonRoundTrip
import LamTo.Library.Outcome
import LamTo.Model.Canonical

/-!
# The canonical form is a faithful encoding

What `_normalize` returns is plain and closed under NFC (`normalize_spec`), and a value
of that kind is what `_normalize` returns for it again (`normalize_ofJson`). Together with
the round trip of the JSON text this says that the canonical bytes determine the
normalised value and that the value read back from them has the same bytes.

SOURCE: src/lamto/evidence/canonical.py
-/

set_option autoImplicit false

namespace LamTo.Analysis

open LamTo.Library LamTo.Model

/-- A text of ASCII characters. -/
def Ascii (t : Text) : Prop := ∀ c ∈ t, c.toNat < 128

/-- The keys and codes the source writes are ASCII, which is read off character by character. -/
theorem ascii_of_all (t : Text) (h : t.all (fun c => c.toNat < 128) = true) : Ascii t :=
  fun c hc => of_decide_eq_true (List.all_eq_true.mp h c hc)

section NfcClosed

variable (U : Unicode)

mutual
/-- Every string and every key is in normal form. -/
def NfcClosed : Json → Prop
  | .str s => U.nfc s = s
  | .arr xs => NfcClosedItems xs
  | .obj ms => NfcClosedMembers ms
  | .null => True
  | .bool _ => True
  | .int _ => True
  | .float _ => True
def NfcClosedItems : List Json → Prop
  | [] => True
  | x :: xs => NfcClosed x ∧ NfcClosedItems xs
def NfcClosedMembers : List (Text × Json) → Prop
  | [] => True
  | (k, v) :: ms => U.nfc k = k ∧ NfcClosed v ∧ NfcClosedMembers ms
end

theorem nfcClosedMembers_iff (ms : List (Text × Json)) :
    NfcClosedMembers U ms ↔ ∀ m ∈ ms, U.nfc m.1 = m.1 ∧ NfcClosed U m.2 := by
  induction ms with
  | nil => simp [NfcClosedMembers]
  | cons m ms ih =>
    obtain ⟨k, v⟩ := m
    simp [NfcClosedMembers, ih, and_assoc]

/-- What a successful normalisation returns. -/
structure Normal (j : Json) : Prop where
  plain : Json.Plain j
  closed : NfcClosed U j

theorem Normal.members_append (acc : List (Text × Json)) (k : Text) (v : Json)
    (hacc : Normal U (.obj acc)) (hk : k ∉ acc.map Prod.fst) (hnfc : U.nfc k = k)
    (hv : Normal U v) : Normal U (.obj (acc ++ [(k, v)])) := by
  obtain ⟨⟨hnd, hplain⟩, hclosed⟩ := hacc
  simp only [NfcClosed] at hclosed
  rw [Json.plainMembers_iff] at hplain
  rw [nfcClosedMembers_iff] at hclosed
  refine ⟨⟨?_, ?_⟩, ?_⟩
  · rw [List.map_append, List.nodup_append]
    refine ⟨hnd, by simp, ?_⟩
    intro a ha b hb
    simp only [List.map_cons, List.map_nil, List.mem_singleton] at hb
    rintro rfl
    exact hk (hb ▸ ha)
  · rw [Json.plainMembers_iff]
    intro m hm
    rcases List.mem_append.mp hm with hm | hm
    · exact hplain m hm
    · rw [List.mem_singleton.mp hm]; exact hv.plain
  · simp only [NfcClosed]
    rw [nfcClosedMembers_iff]
    intro m hm
    rcases List.mem_append.mp hm with hm | hm
    · exact hclosed m hm
    · rw [List.mem_singleton.mp hm]; exact ⟨hnfc, hv.closed⟩

mutual
/-- **Normalised values are plain and closed under NFC.** -/
theorem normalize_spec : ∀ (p : PyValue) (j : Json), Model.normalize U p = .ok j → Normal U j
  | .none, j, h => by cases h; exact ⟨trivial, trivial⟩
  | .bool _, j, h => by cases h; exact ⟨trivial, trivial⟩
  | .int _, j, h => by cases h; exact ⟨trivial, trivial⟩
  | .str s, j, h => by cases h; exact ⟨trivial, U.nfc_nfc s⟩
  | .other _, j, h => by cases h
  | .list xs, j, h => by
    simp only [Model.normalize, bind_eq_ok, pure_eq_ok] at h
    obtain ⟨ys, hys, rfl⟩ := h
    obtain ⟨hplain, hclosed⟩ := normalizeItems_spec xs ys hys
    exact ⟨hplain, hclosed⟩
  | .dict ms, j, h => by
    simp only [Model.normalize, bind_eq_ok, pure_eq_ok] at h
    obtain ⟨ns, hns, rfl⟩ := h
    exact normalizeMembers_spec ms [] ns ⟨⟨List.nodup_nil, trivial⟩, trivial⟩ hns
theorem normalizeItems_spec : ∀ (xs : List PyValue) (ys : List Json),
    normalizeItems U xs = .ok ys → Json.PlainElements ys ∧ NfcClosedItems U ys
  | [], ys, h => by cases h; exact ⟨trivial, trivial⟩
  | x :: xs, ys, h => by
    simp only [normalizeItems, bind_eq_ok, pure_eq_ok] at h
    obtain ⟨y, hy, zs, hzs, rfl⟩ := h
    have hhead := normalize_spec x y hy
    have htail := normalizeItems_spec xs zs hzs
    exact ⟨⟨hhead.plain, htail.1⟩, ⟨hhead.closed, htail.2⟩⟩
theorem normalizeMembers_spec : ∀ (ms : List (PyKey × PyValue)) (acc ns : List (Text × Json)),
    Normal U (.obj acc) → normalizeMembers U acc ms = .ok ns → Normal U (.obj ns)
  | [], acc, ns, hacc, h => by cases h; exact hacc
  | (.other _, _) :: _, acc, ns, _, h => by cases h
  | (.str k, v) :: ms, acc, ns, hacc, h => by
    simp only [normalizeMembers] at h
    split at h
    · cases h
    · next hk =>
      rw [bind_eq_ok] at h
      obtain ⟨w, hw, hrest⟩ := h
      refine normalizeMembers_spec ms _ ns ?_ hrest
      exact hacc.members_append U acc (U.nfc k) w hk (U.nfc_nfc k) (normalize_spec v w hw)
end

/-- Every item of a dictionary is an item of its normal form. -/
theorem mem_of_normalizeMembers (ms : List (PyKey × PyValue)) (acc ns : List (Text × Json))
    (h : normalizeMembers U acc ms = .ok ns) :
    (∀ m ∈ acc, m ∈ ns) ∧
      ∀ k v, (PyKey.str k, v) ∈ ms → ∃ w, Model.normalize U v = .ok w ∧ (U.nfc k, w) ∈ ns := by
  induction ms generalizing acc with
  | nil =>
    cases h
    exact ⟨fun _ hm => hm, fun _ _ hm => by cases hm⟩
  | cons m ms ih =>
    obtain ⟨key, item⟩ := m
    cases key with
    | other _ => cases h
    | str key =>
      simp only [normalizeMembers] at h
      split at h
      · cases h
      · rw [bind_eq_ok] at h
        obtain ⟨w, hw, hrest⟩ := h
        obtain ⟨hacc, hms⟩ := ih _ hrest
        refine ⟨fun m hm => hacc m (List.mem_append_left _ hm), fun k v hkv => ?_⟩
        rcases List.mem_cons.mp hkv with heq | hkv
        · cases heq
          exact ⟨w, hw, hacc _ (List.mem_append_right _ (List.mem_singleton_self _))⟩
        · exact hms k v hkv

theorem ofMembers_eq_map (ms : List (Text × Json)) :
    PyValue.ofMembers ms = ms.map fun m => (PyKey.str m.1, PyValue.ofJson m.2) := by
  induction ms with
  | nil => rfl
  | cons m ms ih => rw [PyValue.ofMembers, ih, List.map_cons]

/-! ## Normalising a normal value -/

mutual
/-- **Normalising what was normalised changes nothing.** -/
theorem normalize_ofJson : ∀ j : Json, Normal U j → Model.normalize U (.ofJson j) = .ok j
  | .null, _ => rfl
  | .bool _, _ => rfl
  | .int _, _ => rfl
  | .float _, h => absurd h.plain (by simp [Json.Plain])
  | .str s, h => by
    have hs : U.nfc s = s := h.closed
    simp [PyValue.ofJson, Model.normalize, hs]
  | .arr xs, h => by
    simp only [PyValue.ofJson, Model.normalize, normalizeItems_ofItems xs h.plain h.closed]
    rfl
  | .obj ms, h => by
    have hms := normalizeMembers_ofMembers ms [] (by simpa using h.plain.1) h.plain.2 h.closed
    simp only [PyValue.ofJson, Model.normalize, hms]
    rfl
theorem normalizeItems_ofItems : ∀ xs : List Json, Json.PlainElements xs → NfcClosedItems U xs →
    normalizeItems U (PyValue.ofItems xs) = .ok xs
  | [], _, _ => rfl
  | x :: xs, hp, hc => by
    simp only [PyValue.ofItems, normalizeItems, normalize_ofJson x ⟨hp.1, hc.1⟩,
      normalizeItems_ofItems xs hp.2 hc.2]
    rfl
theorem normalizeMembers_ofMembers : ∀ (ms acc : List (Text × Json)),
    ((acc ++ ms).map Prod.fst).Nodup → Json.PlainMembers ms → NfcClosedMembers U ms →
    normalizeMembers U acc (PyValue.ofMembers ms) = .ok (acc ++ ms)
  | [], acc, _, _, _ => by simp only [PyValue.ofMembers, normalizeMembers, List.append_nil]
  | (k, v) :: ms, acc, hnd, hp, hc => by
    have hk : k ∉ acc.map Prod.fst := by
      rw [List.map_append, List.nodup_append] at hnd
      exact fun hmem => hnd.2.2 k hmem k (by simp) rfl
    have hrest := normalizeMembers_ofMembers ms (acc ++ [(k, v)]) (by simpa using hnd) hp.2 hc.2.2
    simp only [PyValue.ofMembers, normalizeMembers, hc.1, if_neg hk,
      normalize_ofJson v ⟨hp.1, hc.2.1⟩, ok_bind, hrest, List.append_assoc, List.cons_append,
      List.nil_append]
end

/-! ## Key order -/

mutual
theorem nfcClosed_sortKeys : ∀ j : Json, NfcClosed U (Json.sortKeys j) ↔ NfcClosed U j
  | .null => Iff.rfl
  | .bool _ => Iff.rfl
  | .int _ => Iff.rfl
  | .float _ => Iff.rfl
  | .str _ => Iff.rfl
  | .arr xs => by
    simp only [Json.sortKeys, NfcClosed]
    exact nfcClosed_sortElements xs
  | .obj ms => by
    have hms := nfcClosed_sortMembers ms
    rw [nfcClosedMembers_iff] at hms
    simp only [Json.sortKeys, NfcClosed]
    rw [nfcClosedMembers_iff]
    simp only [List.mem_insertionSort]
    exact hms
theorem nfcClosed_sortElements : ∀ xs : List Json,
    NfcClosedItems U (Json.sortElements xs) ↔ NfcClosedItems U xs
  | [] => Iff.rfl
  | x :: xs => and_congr (nfcClosed_sortKeys x) (nfcClosed_sortElements xs)
theorem nfcClosed_sortMembers : ∀ ms : List (Text × Json),
    NfcClosedMembers U (Json.sortMembers ms) ↔ NfcClosedMembers U ms
  | [] => Iff.rfl
  | (_, v) :: ms =>
    and_congr Iff.rfl (and_congr (nfcClosed_sortKeys v) (nfcClosed_sortMembers ms))
end

/-- A plain value with the meaning of a normal one is normal. -/
theorem Normal.of_denote_eq (j k : Json) (hj : Normal U j) (hk : Json.Plain k)
    (h : Json.denote k = Json.denote j) : Normal U k := by
  refine ⟨hk, ?_⟩
  rw [← nfcClosed_sortKeys, Json.sortKeys_eq_of_denote_eq k j hk hj.plain h, nfcClosed_sortKeys]
  exact hj.closed

end NfcClosed

/-! ## Bytes -/

theorem encodeUtf8_injective (s t : Text) (h : encodeUtf8 s = encodeUtf8 t) : s = t := by
  apply Utf8.encode_injective
  exact congrArg (fun b : ByteArray => b.data.toList) h

theorem loadsBytes_encodeUtf8 (s : Text) : loadsBytes (encodeUtf8 s) = Json.loads s := by
  simp only [loadsBytes, encodeUtf8, Utf8.decode_encode, Option.bind_eq_bind, Option.bind_some]

/-- An array or an object. -/
def IsContainer : Json → Prop
  | .arr _ => True
  | .obj _ => True
  | _ => False

theorem isContainer_of_denote_eq (j k : Json) (h : Json.denote k = Json.denote j)
    (hj : IsContainer j) : IsContainer k := by
  cases j <;> simp only [IsContainer] at hj <;> cases k <;> simp_all [Json.denote, IsContainer]

/-- The canonical bytes of a payload are those of its normalised value. -/
theorem canonicalBytes_eq_ok (U : Unicode) (p : PyValue) (b : ByteArray)
    (h : canonicalBytes U p = .ok b) :
    ∃ j, Model.normalize U p = .ok j ∧ IsContainer j ∧ b = encodeUtf8 (Json.dumps j) := by
  unfold canonicalBytes at h
  split at h
  · next ms =>
    simp only [bind_eq_ok, pure_eq_ok] at h
    obtain ⟨j, hj, rfl⟩ := h
    refine ⟨j, hj, ?_, rfl⟩
    simp only [Model.normalize, bind_eq_ok, pure_eq_ok] at hj
    obtain ⟨ns, _, rfl⟩ := hj
    trivial
  · next xs =>
    simp only [bind_eq_ok, pure_eq_ok] at h
    obtain ⟨j, hj, rfl⟩ := h
    refine ⟨j, hj, ?_, rfl⟩
    simp only [Model.normalize, bind_eq_ok, pure_eq_ok] at hj
    obtain ⟨ys, _, rfl⟩ := hj
    trivial
  · cases h

theorem canonicalBytes_of_normal (U : Unicode) (j : Json) (hj : Normal U j)
    (hc : IsContainer j) : canonicalBytes U (.ofJson j) = .ok (encodeUtf8 (Json.dumps j)) := by
  have hnormal := normalize_ofJson U j hj
  cases j with
  | arr xs =>
    simp only [PyValue.ofJson] at hnormal
    simp only [PyValue.ofJson, canonicalBytes, hnormal, ok_bind]
    rfl
  | obj ms =>
    simp only [PyValue.ofJson] at hnormal
    simp only [PyValue.ofJson, canonicalBytes, hnormal, ok_bind]
    rfl
  | _ => cases hc

/-- **The bytes determine the value**: two accepted payloads have the same bytes exactly when
their normalised values mean the same. -/
theorem canonicalBytes_eq_iff (U : Unicode) (p q : PyValue) (b c : ByteArray) (j k : Json)
    (hp : canonicalBytes U p = .ok b) (hq : canonicalBytes U q = .ok c)
    (hj : Model.normalize U p = .ok j) (hk : Model.normalize U q = .ok k) :
    b = c ↔ Json.denote j = Json.denote k := by
  obtain ⟨j', hj', _, rfl⟩ := canonicalBytes_eq_ok U p b hp
  obtain ⟨k', hk', _, rfl⟩ := canonicalBytes_eq_ok U q c hq
  rw [hj] at hj'
  rw [hk] at hk'
  cases hj'
  cases hk'
  have hdumps := Json.dumps_eq_iff_denote_eq j k (normalize_spec U p j hj).plain
    (normalize_spec U q k hk).plain
  rw [← hdumps]
  exact ⟨encodeUtf8_injective _ _, fun h => by rw [h]⟩

/-- **Any plain value that means the same has the same bytes**: what `json.loads` returns and
what a `jsonb` column gives back are such values. -/
theorem canonicalBytes_of_denote_eq (U : Unicode) (p : PyValue) (b : ByteArray) (j k : Json)
    (hp : canonicalBytes U p = .ok b) (hj : Model.normalize U p = .ok j) (hk : Json.Plain k)
    (h : Json.denote k = Json.denote j) : canonicalBytes U (.ofJson k) = .ok b := by
  obtain ⟨j', hj', hcontainer, rfl⟩ := canonicalBytes_eq_ok U p b hp
  rw [hj] at hj'
  cases hj'
  have hnormal := normalize_spec U p j hj
  have hknormal := Normal.of_denote_eq U j k hnormal hk h
  rw [canonicalBytes_of_normal U k hknormal (isContainer_of_denote_eq j k h hcontainer)]
  rw [(Json.dumps_eq_iff_denote_eq k j hk hnormal.plain).mpr h]

/-- **Reading the bytes back** gives the normalised value, its keys in order. -/
theorem loadsBytes_canonicalBytes (U : Unicode) (p : PyValue) (b : ByteArray) (j : Json)
    (hp : canonicalBytes U p = .ok b) (hj : Model.normalize U p = .ok j) :
    loadsBytes b = some (Json.sortKeys j) := by
  obtain ⟨j', hj', _, rfl⟩ := canonicalBytes_eq_ok U p b hp
  rw [hj] at hj'
  cases hj'
  rw [loadsBytes_encodeUtf8]
  exact Json.loads_dumps j (normalize_spec U p j hj).plain

end LamTo.Analysis
