import Admc.Config.Load
import Admc.Octet
import Admc.Query.Storage

/-!
# GUIDs

Rights and classes are looked up by GUIDs, which objects of the configuration spell as texts and
entries of access control lists hold as bytes. A text has five segments of hexadecimal digits,
and the bytes of the first three are in the order of their significance in the text, and in the
reverse order in the bytes.

* `isGuidString_iff`: the canonical texts are those that are shown for sixteen bytes;
* `guidStringToBytes_guidToDisplayValue`: what is shown is read back;
* `guidRoundTrip`: so a text and bytes are the same GUID by either function.
-/

namespace Admc

/-- `QByteArray::mid`. -/
def QByteArray.mid (bytes : QByteArray) (pos len : ℕ) : QByteArray := (bytes.drop pos).take len

/-- `make_guid_string`. -/
def makeGuidString (segments : List QByteArray) : QString :=
  ['-'].intercalate (segments.map fun segment => QVariant.textOfBytes (QByteArray.toHex segment))

/-- `guid_to_display_value`. -/
def guidToDisplayValue (bytes : QByteArray) : QString :=
  makeGuidString [(QByteArray.mid bytes 0 4).reverse, (QByteArray.mid bytes 4 2).reverse,
    (QByteArray.mid bytes 6 2).reverse, QByteArray.mid bytes 8 2, QByteArray.mid bytes 10 6]

/-- The digits of `toHex`. -/
def isLowerHex (c : Char) : Bool := '0' ≤ c ∧ c ≤ '9' ∨ 'a' ≤ c ∧ c ≤ 'f'

/-- The canonical texts of GUIDs: segments of 8, 4, 4, 4 and 12 digits. -/
def IsGuidString (text : QString) : Prop :=
  (text.splitOn '-').map List.length = [8, 4, 4, 4, 12] ∧
    ∀ segment ∈ text.splitOn '-', ∀ c ∈ segment, isLowerHex c = true

instance decidableIsGuidString (text : QString) : Decidable (IsGuidString text) :=
  inferInstanceAs (Decidable (_ ∧ ∀ segment ∈ text.splitOn '-', ∀ c ∈ segment, _))

/-! ## Segments -/

theorem hexBytes_eq : hexBytes = bytesOfDigits := by
  funext digits
  induction digits using hexBytes.induct with
  | case1 => rfl
  | case2 low => rfl
  | case3 low high digits ih => rw [hexBytes, bytesOfDigits, ih]

theorem hexValue_eq : hexValue = hexDigitValue := by
  funext c
  have ha : 'a' ≤ c → 97 ≤ c.toNat := id
  have hA : 'A' ≤ c → 65 ≤ c.toNat := id
  have hnum : ('0'.toNat, 'a'.toNat, 'A'.toNat) = (48, 97, 65) := rfl
  rw [Prod.mk.injEq, Prod.mk.injEq] at hnum
  rw [hexValue, hexDigitValue, hnum.1, hnum.2.1, hnum.2.2]
  refine if_congr Iff.rfl rfl (ite_congr rfl (fun h => ?_) fun _ => ite_congr rfl (fun h => ?_) ?_)
  · have := ha h.1
    exact congrArg some (by omega)
  · have := hA h.1
    exact congrArg some (by omega)
  · exact fun _ => rfl

/-- The digits of a configuration are those of stored queries. -/
theorem fromHex_eq : fromHex = QByteArray.fromHex := by
  funext text
  rw [fromHex, QByteArray.fromHex, hexBytes_eq, hexValue_eq]

theorem isLowerHex_iff {c : Char} : isLowerHex c = true ↔ ∃ d < 16, c = digitChar d := by
  rw [exists_digitChar_iff (by decide), isLowerHex, decide_eq_true_iff]
  change 48 ≤ c.toNat ∧ c.toNat ≤ 57 ∨ 97 ≤ c.toNat ∧ c.toNat ≤ 102 ↔ _
  omega

/-- The text of a segment. -/
theorem textOfBytes_toHex (bytes : QByteArray) :
    QVariant.textOfBytes (QByteArray.toHex bytes) =
      bytes.flatMap fun b => [digitChar (b.toNat / 16), digitChar (b.toNat % 16)] := by
  have hdigit : ∀ n < 16, QVariant.textOfBytes [hexDigit n] = [digitChar n] := by decide
  induction bytes with
  | nil => rfl
  | cons b bytes ih =>
    have hdiv : b.toNat / 16 < 16 := Nat.div_lt_of_lt_mul b.toNat_lt
    have hmod : b.toNat % 16 < 16 := Nat.mod_lt _ (by decide)
    have hcons : QVariant.textOfBytes (QByteArray.toHex (b :: bytes)) =
        QVariant.textOfBytes [hexDigit (b.toNat / 16)] ++
          (QVariant.textOfBytes [hexDigit (b.toNat % 16)] ++
            QVariant.textOfBytes (QByteArray.toHex bytes)) := rfl
    rw [hcons, hdigit _ hdiv, hdigit _ hmod, ih]
    rfl

theorem isLowerHex_toHex {bytes : QByteArray} :
    ∀ c ∈ QVariant.textOfBytes (QByteArray.toHex bytes), isLowerHex c = true := by
  intro c hc
  rw [textOfBytes_toHex, List.mem_flatMap] at hc
  obtain ⟨b, -, hc⟩ := hc
  have hdiv : b.toNat / 16 < 16 := Nat.div_lt_of_lt_mul b.toNat_lt
  have hmod : b.toNat % 16 < 16 := Nat.mod_lt _ (by decide)
  rw [List.mem_cons, List.mem_singleton] at hc
  exact isLowerHex_iff.2 (hc.elim (fun h => ⟨_, hdiv, h⟩) fun h => ⟨_, hmod, h⟩)

theorem length_toHex (bytes : QByteArray) :
    (QVariant.textOfBytes (QByteArray.toHex bytes)).length = 2 * bytes.length := by
  rw [textOfBytes_toHex]
  induction bytes with
  | nil => rfl
  | cons b bytes ih =>
    rw [List.flatMap_cons, List.length_append, ih, List.length_cons, List.length_cons,
      List.length_cons, List.length_nil]
    omega

/-- Digits for so many bytes are the text of such bytes. -/
theorem exists_toHex {n : ℕ} {text : QString} (hlength : text.length = 2 * n)
    (hdigits : ∀ c ∈ text, isLowerHex c = true) :
    ∃ bytes : QByteArray, bytes.length = n ∧
      text = QVariant.textOfBytes (QByteArray.toHex bytes) := by
  induction n generalizing text with
  | zero => exact ⟨[], rfl, List.length_eq_zero_iff.1 hlength⟩
  | succ n ih =>
    match text, hlength, hdigits with
    | c :: c' :: text, hlength, hdigits =>
      rw [List.forall_mem_cons, List.forall_mem_cons] at hdigits
      obtain ⟨d, hd, rfl⟩ := isLowerHex_iff.1 hdigits.1
      obtain ⟨d', hd', rfl⟩ := isLowerHex_iff.1 hdigits.2.1
      rw [List.length_cons, List.length_cons] at hlength
      obtain ⟨bytes, hbytes, rfl⟩ := ih (by omega) hdigits.2.2
      have hbyte : (UInt8.ofNat (16 * d + d')).toNat = 16 * d + d' :=
        UInt8.toNat_ofNat_of_lt' (by change _ < 256; omega)
      have hdiv : (16 * d + d') / 16 = d := by omega
      have hmod : (16 * d + d') % 16 = d' := by omega
      refine ⟨.ofNat (16 * d + d') :: bytes, congrArg (· + 1) hbytes, ?_⟩
      rw [textOfBytes_toHex, textOfBytes_toHex, List.flatMap_cons, hbyte, hdiv, hmod]
      rfl

/-! ## Whole values -/

/-- The segments of a text are those it is made of. -/
theorem splitOn_makeGuidString {segments : List QByteArray} (h : segments ≠ []) :
    (makeGuidString segments).splitOn '-' =
      segments.map fun segment => QVariant.textOfBytes (QByteArray.toHex segment) := by
  refine List.splitOn_intercalate '-' (fun text htext => ?_) (mt List.map_eq_nil_iff.1 h)
  obtain ⟨segment, -, rfl⟩ := List.mem_map.1 htext
  intro hmem
  exact absurd (isLowerHex_toHex _ hmem) (by decide)

/-- The bytes of a text are those of its segments, where those of the first three are
    reversed. -/
theorem guidStringToBytes_makeGuidString (a b c d e : QByteArray) :
    guidStringToBytes (.ofList (makeGuidString [a, b, c, d, e])) =
      a.reverse ++ (b.reverse ++ (c.reverse ++ (d ++ e))) := by
  have hsplit := splitOn_makeGuidString (List.cons_ne_nil a [b, c, d, e])
  have hne : String.ofList (makeGuidString [a, b, c, d, e]) ≠ "" := by
    intro hempty
    have hnil : makeGuidString [a, b, c, d, e] = [] := String.ofList_injective hempty
    rw [hnil] at hsplit
    exact absurd (congrArg List.length hsplit) (by simp)
  have hsegments :
      ((makeGuidString [a, b, c, d, e]).splitOn '-').map fromHex = [a, b, c, d, e] := by
    rw [hsplit, List.map_map, fromHex_eq]
    exact (List.map_congr_left fun segment _ => fromHex_toHex segment).trans (List.map_id _)
  rw [guidStringToBytes, if_neg hne, String.toList_ofList, guidStringToSegmentList, hsegments]
  simp only [List.take_succ_cons, List.take_zero, List.drop_succ_cons, List.drop_zero,
    List.map_cons, List.map_nil, List.cons_append, List.nil_append, List.flatten_cons,
    List.flatten_nil, List.append_nil]

/-- What is shown is read back. -/
theorem guidStringToBytes_guidToDisplayValue {bytes : QByteArray} (h : bytes.length = 16) :
    guidStringToBytes (.ofList (guidToDisplayValue bytes)) = bytes := by
  have hmid : ∀ pos len, bytes.take pos ++ QByteArray.mid bytes pos len = bytes.take (pos + len) :=
    fun pos len => List.take_add.symm
  rw [guidToDisplayValue, guidStringToBytes_makeGuidString, List.reverse_reverse,
    List.reverse_reverse, List.reverse_reverse]
  calc QByteArray.mid bytes 0 4 ++ (QByteArray.mid bytes 4 2 ++ (QByteArray.mid bytes 6 2 ++
        (QByteArray.mid bytes 8 2 ++ QByteArray.mid bytes 10 6)))
    _ = bytes.take 16 := by
      rw [← List.append_assoc, ← List.append_assoc, ← List.append_assoc, ← hmid 10 6,
        ← hmid 8 2, ← hmid 6 2, ← hmid 4 2]
      rfl
    _ = bytes := List.take_of_length_le h.le

theorem mid_append {x y z : QByteArray} {pos len : ℕ} (hx : x.length = pos) (hy : y.length = len) :
    QByteArray.mid (x ++ (y ++ z)) pos len = y := by
  rw [QByteArray.mid, List.drop_left' hx, List.take_left' hy]

/-- The text of sixteen bytes, by segments. -/
theorem guidToDisplayValue_append {a b c d e : QByteArray} (ha : a.length = 4) (hb : b.length = 2)
    (hc : c.length = 2) (hd : d.length = 2) (he : e.length = 6) :
    guidToDisplayValue (a ++ (b ++ (c ++ (d ++ e)))) =
      makeGuidString [a.reverse, b.reverse, c.reverse, d, e] := by
  have hmid₁ : QByteArray.mid (a ++ (b ++ (c ++ (d ++ e)))) 0 4 = a := List.take_left' ha
  have hmid₃ : QByteArray.mid (a ++ (b ++ (c ++ (d ++ e)))) 6 2 = c := by
    rw [← List.append_assoc a]
    exact mid_append (by rw [List.length_append, ha, hb]) hc
  have hmid₄ : QByteArray.mid (a ++ (b ++ (c ++ (d ++ e)))) 8 2 = d := by
    rw [← List.append_assoc a, ← List.append_assoc (a ++ b)]
    exact mid_append (by rw [List.length_append, List.length_append, ha, hb, hc]) hd
  have hmid₅ : QByteArray.mid (a ++ (b ++ (c ++ (d ++ e)))) 10 6 = e := by
    have hend := @mid_append (a ++ b ++ c ++ d) e [] 10 6 (by simp [ha, hb, hc, hd]) he
    simpa using hend
  rw [guidToDisplayValue, hmid₁, mid_append ha hb, hmid₃, hmid₄, hmid₅]

/-- The canonical texts are those that are shown for sixteen bytes. -/
theorem isGuidString_iff {text : QString} :
    IsGuidString text ↔
      ∃ bytes : QByteArray, bytes.length = 16 ∧ text = guidToDisplayValue bytes := by
  constructor
  · rintro ⟨hlengths, hdigits⟩
    have htext : ['-'].intercalate (text.splitOn '-') = text := List.intercalate_splitOn '-'
    generalize text.splitOn '-' = segments at hlengths hdigits htext
    obtain ⟨s₁, _, rfl, h₁, hlengths⟩ := List.map_eq_cons_iff.1 hlengths
    obtain ⟨s₂, _, rfl, h₂, hlengths⟩ := List.map_eq_cons_iff.1 hlengths
    obtain ⟨s₃, _, rfl, h₃, hlengths⟩ := List.map_eq_cons_iff.1 hlengths
    obtain ⟨s₄, _, rfl, h₄, hlengths⟩ := List.map_eq_cons_iff.1 hlengths
    obtain ⟨s₅, _, rfl, h₅, hlengths⟩ := List.map_eq_cons_iff.1 hlengths
    obtain rfl := List.map_eq_nil_iff.1 hlengths
    simp only [List.forall_mem_cons] at hdigits
    obtain ⟨a, ha, rfl⟩ := @exists_toHex 4 _ h₁ hdigits.1
    obtain ⟨b, hb, rfl⟩ := @exists_toHex 2 _ h₂ hdigits.2.1
    obtain ⟨c, hc, rfl⟩ := @exists_toHex 2 _ h₃ hdigits.2.2.1
    obtain ⟨d, hd, rfl⟩ := @exists_toHex 2 _ h₄ hdigits.2.2.2.1
    obtain ⟨e, he, rfl⟩ := @exists_toHex 6 _ h₅ hdigits.2.2.2.2.1
    refine ⟨a.reverse ++ (b.reverse ++ (c.reverse ++ (d ++ e))), ?_, ?_⟩
    · simp only [List.length_append, List.length_reverse, ha, hb, hc, hd, he]
    · rw [guidToDisplayValue_append (by rw [List.length_reverse, ha])
        (by rw [List.length_reverse, hb]) (by rw [List.length_reverse, hc]) hd he,
        List.reverse_reverse, List.reverse_reverse, List.reverse_reverse]
      exact htext.symm
  · rintro ⟨bytes, h, rfl⟩
    have hlength : ∀ pos len, pos + len ≤ 16 → (QByteArray.mid bytes pos len).length = len := by
      intro pos len hle
      rw [QByteArray.mid, List.length_take, List.length_drop, h]
      omega
    rw [guidToDisplayValue, IsGuidString, splitOn_makeGuidString (List.cons_ne_nil _ _)]
    constructor
    · simp only [List.map_cons, List.map_nil, length_toHex, List.length_reverse,
        hlength 0 4 (by decide), hlength 4 2 (by decide), hlength 6 2 (by decide),
        hlength 8 2 (by decide), hlength 10 6 (by decide)]
    · intro segment hsegment
      obtain ⟨bytes, -, rfl⟩ := List.mem_map.1 hsegment
      exact isLowerHex_toHex

/-- GUIDs as texts and as bytes: either is given back by way of the other, and they are looked up
    as the same. -/
theorem guidRoundTrip :
    (∀ bytes : QByteArray, bytes.length = 16 →
      guidStringToBytes (.ofList (guidToDisplayValue bytes)) = bytes) ∧
    (∀ text : String, IsGuidString text.toList →
      guidToDisplayValue (guidStringToBytes text) = text.toList) ∧
    ∀ (text : String) (bytes : QByteArray), IsGuidString text.toList → bytes.length = 16 →
      (guidStringToBytes text = bytes ↔ text.toList = guidToDisplayValue bytes) := by
  have hread : ∀ text : String, IsGuidString text.toList →
      guidToDisplayValue (guidStringToBytes text) = text.toList := by
    intro text htext
    obtain ⟨bytes, hbytes, heq⟩ := isGuidString_iff.1 htext
    have hstring : text = .ofList (guidToDisplayValue bytes) := by
      rw [← heq, String.ofList_toList]
    rw [hstring, guidStringToBytes_guidToDisplayValue hbytes, String.toList_ofList]
  refine ⟨fun bytes => guidStringToBytes_guidToDisplayValue, hread, ?_⟩
  intro text bytes htext hbytes
  constructor
  · rintro rfl
    exact (hread text htext).symm
  · intro heq
    rw [← guidStringToBytes_guidToDisplayValue hbytes, ← heq, String.ofList_toList]

theorem isGuidString_user : IsGuidString "bf967aba-0de6-11d0-a285-00aa003049e2".toList := by
  have hsplit : "bf967aba-0de6-11d0-a285-00aa003049e2".toList.splitOn '-' =
      ["bf967aba", "0de6", "11d0", "a285", "00aa003049e2"].map String.toList := by decide
  have hdigits : ∀ segment ∈ ["bf967aba", "0de6", "11d0", "a285", "00aa003049e2"],
      segment.toList.all isLowerHex = true := List.all_iff_forall_prop.1 (by decide)
  rw [IsGuidString, hsplit]
  refine ⟨rfl, List.forall_mem_map.2 fun segment hsegment => ?_⟩
  exact List.all_eq_true.1 (hdigits segment hsegment)

/-- The GUID of the class of users, with a segment that starts with a zero. -/
theorem guidRoundTrip_user :
    guidToDisplayValue (guidStringToBytes "bf967aba-0de6-11d0-a285-00aa003049e2") =
      "bf967aba-0de6-11d0-a285-00aa003049e2".toList :=
  guidRoundTrip.2.1 _ isGuidString_user

end Admc
