import FramePacing.Proofs.Json.Scaling
import FramePacing.Proofs.Settings.Known

/-!
# Settings that are written and read

The text of settings is an object with one member for each field, and reading it comes down to
reading three values.  The two counts are read as what they were.  The interval is read as the float
that its digits are scaled to, and this need not be the float it was.

* `text_members`, `ofJson_json_eq_ok` — the members that the text is made of, and what is read of
  them.
* `ofJson_json` — valid settings are always read back, the counts unchanged and the interval less
  than five units in the last place away.
* `ofJson_json_ne` — the interval is not always what it was.
-/

namespace FramePacing.Settings

open Binary Decimal Json

variable {c : Settings} {n : Numeral} {y : Float}

/-! ## The text -/

/-- The members of the text of settings whose interval is written as `n`. -/
def members (c : Settings) (n : Numeral) : List Member :=
  [.bare Field.sampleCapacity.name (.bare (.number (.ofNat c.sampleCapacity.toNat))),
    .bare Field.refreshInterval.name (.bare (.number n)),
    .bare Field.decimals.name (.bare (.number (.ofNat c.decimals.toNat)))]

/-- What is bound by them. -/
def memberBindings (c : Settings) (n : Numeral) : List Binding :=
  [(.sampleCapacity, (Numeral.ofNat c.sampleCapacity.toNat).text), (.refreshInterval, n.text),
    (.decimals, (Numeral.ofNat c.decimals.toNat).text)]

/-- The names of the fields need no escapes. -/
lemma plain_name (f : Field) : ∀ c ∈ f.name.toList, c ≠ '"' ∧ c ≠ '\\' ∧ isControl c = false := by
  have hall : f.name.toList.all (fun c => c != '"' && c != '\\' && !isControl c) = true := by
    cases f <;> decide +kernel
  simpa [and_assoc] using List.all_eq_true.mp hall

lemma meaning_bare (f : Field) (i : Item) :
    (Member.bare f.name i).meaning = (some f.name.toList, i.value) := by
  rw [Member.meaning, Member.name?, Member.bare]
  dsimp only
  rw [decode?_plainly (plain_name f)]

lemma toList_quote_name (f : Field) :
    (quote f.name).toList = '"' :: (f.name.toList ++ ['"']) := by
  cases f <;> decide +kernel

lemma text_bare (f : Field) (i : Item) :
    (Member.bare f.name i).text = (quote f.name).toList ++ ':' :: i.text := by
  simp [Member.text, Member.keyed, Member.bare, texts_plainly (plain_name f), toList_quote_name]

/-- **These members make up the text of the settings.** -/
lemma text_members (hn : n.text = (jsonText c.refreshInterval).toList) :
    ObjectText.text (.bare (members c n)) = c.json := by
  rw [← String.toList_inj, ObjectText.text, String.toList_ofList, Settings.json, Json.object]
  simp only [members, Enclosed.chars, Enclosed.bare, List.map_cons, List.map_nil, commaed,
    text_bare, Item.bare, Item.text, hn, text_ofNat, String.intercalate_cons_cons]
  simp [Field.name, Bracket.opening, Bracket.closing]

/-! ## Reading it -/

lemma count?_ofNat (k : UInt64) : count? (Numeral.ofNat k.toNat).text = some k := by
  have hle : k.toNat ≤ significandLimit := Nat.le_of_lt_succ k.toNat_lt
  rw [count?, amount?_numeral, number?_ofNat hle]
  dsimp only
  rw [if_neg (by omega), Int.toNat_natCast]
  exact congrArg some (UInt64.ofNat_toNat)

lemma millis?_numeral (hy : n.number? = some (.float y)) : millis? n.text = some y := by
  rw [millis?, amount?_numeral, hy]
  rfl

/-- **The text is read as the counts that it is of**, and the float that the interval is read as. -/
theorem ofJson_json_eq_ok (hn : n.text = (jsonText c.refreshInterval).toList)
    (hy : n.number? = some (.float y)) (hroom : 1 ≤ c.sampleCapacity.toNat)
    (hfinite : y.isFinite = true) (hpos : 0 < y) :
    ofJson c.json = .ok { c with refreshInterval := y } := by
  have hmeaning : (members c n).map Member.meaning
      = (memberBindings c n).map fun b => (some b.1.name.toList, b.2) := by
    simp [members, memberBindings, meaning_bare, Item.bare]
  obtain ⟨hnamed, hbindings⟩ := bindings_of_meaning hmeaning
  rw [← text_members hn, ofJson_object_eq_ok_iff]
  refine ⟨hnamed, ⟨some c.sampleCapacity, some y, some c.decimals⟩, ?_, rfl, hroom, hfinite, hpos⟩
  have hbound : (memberBindings c n).foldlM Draft.bind? {}
      = some ⟨some c.sampleCapacity, some y, some c.decimals⟩ := by
    simp [memberBindings, Draft.bind?, Draft.has, Field.parse?, count?_ofNat, millis?_numeral hy,
      Draft.set]
  exact hbindings ▸ foldlM_bind?_eq_some_iff.mp hbound

/-! ## The interval -/

/-- A float above zero is written with its shortest digits. -/
lemma jsonText_of_ofFloat {x : Magnitude} (hy : y.isFinite = true)
    (h : Reading.ofFloat y = .finite false x) (hpos : 0 < x.significand) :
    jsonText y = (x.shortest .toEven).text .json := by
  rw [jsonText, if_pos hy, shortestText, h]
  dsimp only
  rw [if_neg hpos.ne']
  exact String.empty_append

lemma validate_eq_ok_iff : c.validate = .ok c ↔ c.IsValid := by
  refine ⟨fun h => complaint?_eq_none_iff.mp ?_, validate_of_isValid⟩
  rw [validate] at h
  split at h
  · cases h
  · assumption

/--
**Valid settings can always be read back.**  The counts come back as they were.  The interval
comes back less than five units in the last place away; and it comes back as it was if its digits,
read as one number, need not be rounded, nor does their power of ten.  So every whole number of
milliseconds up to `900719925474099` comes back as it was.
-/
theorem ofJson_json (h : c.validate = .ok c) :
    ∃ (n : Numeral) (y : Float), n.text = (jsonText c.refreshInterval).toList
      ∧ ofJson c.json = .ok { c with refreshInterval := y }
      ∧ |value y - value c.refreshInterval| < 5 * 2 ^ lastPlace (value c.refreshInterval)
      ∧ (n.significand ≤ 2 ^ 53 → n.exponent.natAbs ≤ 22 → y = c.refreshInterval)
      ∧ ∀ k : ℕ, 10 * k ≤ 2 ^ 53 → value c.refreshInterval = k → y = c.refreshInterval := by
  obtain ⟨hroom, hfinite, hpositive⟩ := validate_eq_ok_iff.mp h
  have hpos : 0 < value c.refreshInterval :=
    (lt_iff_value_lt Duration.isFinite_zero hfinite).mp hpositive
  obtain ⟨x, hreading, hx⟩ := Magnitude.exists_stored hfinite hpos
  obtain ⟨-, hvalue⟩ := Magnitude.value_of_ofFloat hreading
  obtain ⟨n, hn⟩ := exists_shows_shortest hx
  obtain ⟨y, hy, hyfinite, hypos, hnear⟩ := reread?_close hx
  have htext := hn.text
  rw [← jsonText_of_ofFloat hfinite hreading hx.pos] at htext
  have hnumber : n.number? = some (.float y) := by
    rw [hn.number?_eq (isWritten hx).fits]
    exact congrArg (Option.map Number.float) hy
  have hexact (hdigits : (writtenDigits x).coefficient ≤ 2 ^ 53)
      (hpower : (writtenDigits x).exponent.natAbs ≤ 22) : y = c.refreshInterval := by
    obtain ⟨y', hy', -, hvalue'⟩ := reread?_exact hx hdigits hpower
    obtain rfl : y = y' := Option.some.inj (hy.symm.trans hy')
    exact eq_of_value_eq hyfinite hfinite hypos (hvalue'.trans hvalue.symm)
  refine ⟨n, y, htext, ?_, ?_, ?_, ?_⟩
  · exact ofJson_json_eq_ok htext hnumber hroom hyfinite
      ((lt_iff_value_lt Duration.isFinite_zero hyfinite).mpr hypos)
  · rw [hvalue, Magnitude.lastPlace_value hx]
    exact hnear
  · rw [hn.significand, hn.exponent]
    exact hexact
  · intro k hk hwhole
    have hdigits := writtenDigits_of_whole hx (hvalue.symm.trans hwhole) hk
    exact hexact (by rwa [hdigits]) (by simp [hdigits])

/-- The default settings come back as they are, -/
theorem ofJson_json_default :
    ({} : Settings).validate = .ok {} ∧ ofJson ({} : Settings).json = .ok {} := by
  have hvalid : ({} : Settings).validate = .ok {} := by decide +kernel
  have hvalue : value ({} : Settings).refreshInterval = (1000 : ℕ) := by
    have hreading : Reading.ofFloat 1000 = .finite false ⟨1000 * 2 ^ 43, -43⟩ := by decide +kernel
    rw [(Magnitude.value_of_ofFloat hreading).2, Magnitude.value]
    norm_num
  obtain ⟨n, y, -, hread, -, -, hwhole⟩ := ofJson_json hvalid
  rw [hwhole 1000 (by norm_num) hvalue] at hread
  exact ⟨hvalid, hread⟩

/-- but an interval of seventeen digits, the last of them the zero behind the point, does not. -/
theorem ofJson_json_ne :
    Settings.validate ⟨2000, 9007199254740991, 3⟩ = .ok ⟨2000, 9007199254740991, 3⟩
      ∧ ofJson (Settings.json ⟨2000, 9007199254740991, 3⟩) = .ok ⟨2000, 9007199254740990, 3⟩
      ∧ ofJson (Settings.json ⟨2000, 9007199254740991, 3⟩)
          ≠ .ok ⟨2000, 9007199254740991, 3⟩ := by
  have hread : ofJson (Settings.json ⟨2000, 9007199254740991, 3⟩)
      = .ok ⟨2000, 9007199254740990, 3⟩ := by decide +kernel
  refine ⟨by decide +kernel, hread, ?_⟩
  rw [hread]
  decide +kernel

end FramePacing.Settings
