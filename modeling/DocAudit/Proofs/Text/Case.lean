import DocAudit.Text.Case
import Mathlib.Algebra.Order.Ring.GeomSum
import Mathlib.Data.List.Forall2
import Mathlib.Data.Nat.Bitwise

/-!
Upper case is stable, and letters that count as the same have one upper case, except for six
letters, whose lower case goes back to other letters. A lower case in ASCII comes from ASCII, but for
the sign of kelvin. All of these are facts about the tables of the case maps; what the tables have to
satisfy is read off them run by run.
-/

namespace DocAudit.Text

/-! ## Sets of code points -/

/-- Some code points as the bits of a number, so that two lists are compared without a search. -/
def codeBits (codes : List Nat) : Nat :=
  codes.foldr (fun code bits => 2 ^ code ||| bits) 0

theorem testBit_codeBits (codes : List Nat) (code : Nat) :
    (codeBits codes).testBit code = decide (code ∈ codes) := by
  induction codes with
  | nil => simp [codeBits]
  | cons other rest induction =>
    rw [codeBits, List.foldr_cons, ← codeBits, Nat.testBit_or, induction, Nat.testBit_two_pow]
    simp [eq_comm]

theorem disjoint_of_codeBits {left right : List Nat}
    (apart : codeBits left &&& codeBits right = 0) : left.Disjoint right := by
  intro code inLeft inRight
  have shared : (codeBits left &&& codeBits right).testBit code = true := by
    rw [Nat.testBit_and, testBit_codeBits, testBit_codeBits, decide_eq_true inLeft,
      decide_eq_true inRight]
    rfl
  rw [apart, Nat.zero_testBit] at shared
  cases shared

theorem codeBits_append (left right : List Nat) :
    codeBits (left ++ right) = codeBits left ||| codeBits right := by
  refine Nat.eq_of_testBit_eq fun code => ?_
  simp [testBit_codeBits]

theorem codeBits_flatMap {α : Type} {codesOf : α → List Nat} {bitsOf : α → Nat} {items : List α}
    (known : ∀ item ∈ items, codeBits (codesOf item) = bitsOf item) :
    codeBits (items.flatMap codesOf) = items.foldr (fun item bits => bitsOf item ||| bits) 0 := by
  induction items with
  | nil => rfl
  | cons item rest induction =>
    rw [List.forall_mem_cons] at known
    rw [List.flatMap_cons, codeBits_append, known.1, induction known.2, List.foldr_cons]

/-- The bits of evenly spaced code points are a geometric sum. -/
theorem codeBits_range' (first count : Nat) {step : Nat} (spaced : 0 < step) :
    codeBits (List.range' first count step) =
      2 ^ first * ((2 ^ (step * count) - 1) / (2 ^ step - 1)) := by
  have base : 2 ≤ 2 ^ step := Nat.le_self_pow spaced.ne' 2
  rw [Nat.pow_mul, ← Nat.geomSum_eq base]
  induction count generalizing first with
  | zero => rfl
  | succ count induction =>
    have below : 2 ^ first < 2 ^ (first + step) := Nat.pow_lt_pow_right (by decide) (by omega)
    rw [List.range'_succ, codeBits, List.foldr_cons, ← codeBits, induction, Nat.or_comm,
      ← Nat.two_pow_add_eq_or_of_lt below, geom_sum_succ, Nat.pow_add,
      Nat.mul_add, Nat.mul_one, Nat.mul_assoc]

/-! ## Runs -/

/-- What is made of the first item that passes. The kernel searches the tables by this, which is
why the recursor itself stands here. -/
def ofFirst {α β : Type} (passes : α → Bool) (use : α → β) (otherwise : β) (items : List α) : β :=
  List.rec otherwise (fun item _ later => bif passes item then use item else later) items

theorem ofFirst_eq {α β : Type} (passes : α → Bool) (use : α → β) (otherwise : β)
    (items : List α) :
    ofFirst passes use otherwise items = ((items.find? passes).map use).getD otherwise := by
  induction items with
  | nil => rfl
  | cons item rest induction =>
    change (bif passes item then use item else ofFirst passes use otherwise rest) = _
    rw [induction, List.find?_cons]
    cases passes item <;> rfl

namespace CaseRuns

abbrev Run := Nat × Nat × Nat × Int

def holds (code : Nat) (run : Run) : Bool :=
  Nat.ble code run.2.1 && Nat.ble run.1 code && Nat.beq ((code - run.1) % run.2.2.1) 0

def imageOf : Run → Nat → Nat
  | (_, _, _, shift), code => (code + shift).toNat

def members : Run → List Nat
  | (first, last, step, _) => List.range' first ((last - first) / step + 1) step

theorem holds_iff {code first last step : Nat} {shift : Int} :
    holds code (first, last, step, shift) = true ↔
      first ≤ code ∧ code ≤ last ∧ (code - first) % step = 0 := by
  simp [holds, and_assoc, and_left_comm]

theorem image?_eq (runs : CaseRuns) (code : Nat) :
    runs.image? code = (runs.find? (holds code)).map (imageOf · code) := by
  rw [image?]
  congr 2
  funext ⟨first, last, step, shift⟩
  rw [Bool.eq_iff_iff, holds_iff]
  simp [and_assoc]

theorem mem_members {run : Run} {code : Nat} (held : holds code run = true) :
    code ∈ members run := by
  obtain ⟨first, last, step, shift⟩ := run
  obtain ⟨begun, ended, stepped⟩ := holds_iff.mp held
  refine List.mem_range'.mpr ⟨(code - first) / step, ?_, ?_⟩
  · exact Nat.lt_succ_of_le (Nat.div_le_div_right (Nat.sub_le_sub_right ended first))
  · rw [Nat.mul_div_cancel' (Nat.dvd_of_mod_eq_zero stepped), Nat.add_sub_cancel' begun]

/-- The bits of as many code points as a run holds, spaced as these are, from `low` on. -/
def bitsFrom (low : Nat) : Run → Nat
  | (first, last, step, _) =>
    2 ^ low * ((2 ^ (step * ((last - first) / step + 1)) - 1) / (2 ^ step - 1))

/-- The bits of what the runs hold. -/
def memberBits (runs : CaseRuns) : Nat :=
  runs.foldr (fun run bits => bitsFrom run.1 run ||| bits) 0

/-- The bits of what the runs make of what they hold. -/
def imageBits (runs : CaseRuns) : Nat :=
  runs.foldr (fun run bits => bitsFrom (imageOf run run.1) run ||| bits) 0

theorem codeBits_members {runs : CaseRuns} (spaced : ∀ run ∈ runs, 0 < run.2.2.1) :
    codeBits (runs.flatMap members) = runs.memberBits :=
  codeBits_flatMap fun run known => codeBits_range' run.1 _ (spaced run known)

theorem map_imageOf_members {run : Run} (kept : 0 ≤ run.1 + run.2.2.2) :
    (members run).map (imageOf run) =
      List.range' (imageOf run run.1) ((run.2.1 - run.1) / run.2.2.1 + 1) run.2.2.1 := by
  obtain ⟨first, last, step, shift⟩ := run
  refine List.ext_getElem (by simp [members]) fun place _ _ => ?_
  simp only [members, imageOf, List.getElem_map, List.getElem_range'] at kept ⊢
  push_cast
  omega

theorem codeBits_images {runs : CaseRuns} (spaced : ∀ run ∈ runs, 0 < run.2.2.1)
    (kept : ∀ run ∈ runs, 0 ≤ run.1 + run.2.2.2) :
    codeBits (runs.flatMap fun run => (members run).map (imageOf run)) = runs.imageBits := by
  refine codeBits_flatMap fun run known => ?_
  rw [map_imageOf_members (kept run known)]
  exact codeBits_range' _ _ (spaced run known)

theorem imageOf_bounds {run : Run} {code : Nat} (held : holds code run = true) :
    imageOf run run.1 ≤ imageOf run code ∧ imageOf run code ≤ imageOf run run.2.1 := by
  obtain ⟨first, last, step, shift⟩ := run
  obtain ⟨begun, ended, -⟩ := holds_iff.mp held
  simp only [imageOf]
  omega

theorem exists_of_image? {runs : CaseRuns} {code image : Nat}
    (found : runs.image? code = some image) :
    ∃ run ∈ runs, holds code run = true ∧ imageOf run code = image := by
  rw [image?_eq, Option.map_eq_some_iff] at found
  obtain ⟨run, found, same⟩ := found
  exact ⟨run, List.mem_of_find?_eq_some found, List.find?_some found, same⟩

/-- Where the runs send a code point; what they do not hold stays. -/
def codeOf (runs : CaseRuns) (code : Nat) : Nat :=
  ofFirst (holds code) (imageOf · code) code runs

theorem codeOf_eq (runs : CaseRuns) (code : Nat) :
    runs.codeOf code = (runs.image? code).getD code := by
  rw [codeOf, ofFirst_eq, image?_eq]

/-- Runs that begin behind a code point do not hold it. -/
theorem codeOf_cons {run : Run} {rest : CaseRuns} {code : Nat}
    (behind : ∀ other ∈ rest, code < other.1) :
    codeOf (run :: rest) code = if holds code run then imageOf run code else code := by
  have none : rest.find? (holds code) = Option.none := by
    refine List.find?_eq_none.mpr fun other member held => ?_
    exact absurd (holds_iff.mp held).1 (Nat.not_le_of_lt (behind other member))
  rw [codeOf, ofFirst_eq, List.find?_cons, none]
  cases holds code run <;> rfl

/-- Whether some code points from `low` to `high` can be in a run. -/
def meets (low high : Nat) (run : Run) : Bool :=
  Nat.ble low run.2.1 && Nat.ble run.1 high

theorem meets_iff {low high first last step : Nat} {shift : Int} :
    meets low high (first, last, step, shift) = true ↔ low ≤ last ∧ first ≤ high := by
  simp [meets]

/-- Whether every image of a run is in another run, which sends it back. -/
def isSentBackBy : Run → Run → Bool
  | (first, last, step, shift), (first', last', step', shift') =>
    let low := (first + shift).toNat
    Nat.ble 1 low && Nat.ble first' low && Nat.ble (last + shift).toNat last'
      && (low - first') % step' == 0 && step % step' == 0 && shift' == -shift

/-- Whether the images of a run are sent back by the first run that they meet. -/
def isSentBack (runs : CaseRuns) (run : Run) : Bool :=
  ofFirst (meets (imageOf run run.1) (imageOf run run.2.1)) (isSentBackBy run) false runs

theorem image?_imageOf {runs : CaseRuns} {run : Run} (sent : isSentBack runs run = true)
    {code : Nat} (held : holds code run = true) :
    runs.image? (imageOf run code) = some code := by
  rw [isSentBack, ofFirst_eq] at sent
  cases found : runs.find? (meets (imageOf run run.1) (imageOf run run.2.1)) with
  | none => simp [found] at sent
  | some back =>
    rw [found, Option.map_some, Option.getD_some] at sent
    obtain ⟨first, last, step, shift⟩ := run
    obtain ⟨first', last', step', shift'⟩ := back
    obtain ⟨begun, ended, stepped⟩ := holds_iff.mp held
    simp only [isSentBackBy, Bool.and_eq_true, Nat.ble_eq, beq_iff_eq] at sent
    obtain ⟨⟨⟨⟨⟨positive, begun'⟩, ended'⟩, stepped'⟩, steps⟩, rfl⟩ := sent
    obtain ⟨-, before, after, rfl, noneBefore⟩ := List.find?_eq_some_iff_append.mp found
    have moved :
        code - first + ((first + shift).toNat - first') = (code + shift).toNat - first' := by
      omega
    have stands : holds (code + shift).toNat (first', last', step', -shift) = true := by
      refine holds_iff.mpr ⟨by omega, by omega, ?_⟩
      rw [← moved]
      apply Nat.mod_eq_zero_of_dvd
      refine Nat.dvd_add ?_ (Nat.dvd_of_mod_eq_zero stepped')
      exact (Nat.dvd_of_mod_eq_zero steps).trans (Nat.dvd_of_mod_eq_zero stepped)
    have notBefore : ∀ other ∈ before, holds (code + shift).toNat other = false := by
      rintro ⟨first'', last'', step'', shift''⟩ member
      have apart := noneBefore _ member
      simp only [Bool.not_eq_true', ← Bool.not_eq_true, meets_iff, imageOf] at apart
      rw [← Bool.not_eq_true, holds_iff]
      omega
    rw [image?_eq, Option.map_eq_some_iff]
    refine ⟨_, List.find?_eq_some_iff_append.mpr ⟨stands, before, after, rfl, ?_⟩, ?_⟩
    · intro other member
      rw [imageOf, notBefore other member]
      rfl
    · simp only [imageOf]
      omega

end CaseRuns

open CaseRuns

/-! ## What the tables satisfy -/

theorem lookup_eq_find? {Content : Type} (table : List (Nat × Content)) (code : Nat) :
    table.lookup code = (table.find? fun entry => Nat.beq entry.1 code).map Prod.snd := by
  induction table with
  | nil => rfl
  | cons entry rest induction =>
    rw [List.lookup_cons, List.find?_cons, induction]
    by_cases same : code = entry.1
    · simp [same]
    · have apart : Nat.beq entry.1 code = false :=
        Bool.eq_false_iff.mpr (mt Nat.eq_of_beq_eq_true (Ne.symm same))
      simp [beq_eq_false_iff_ne.mpr same, apart]

/-- Upper case of a code point. -/
def upperCodes (code : Nat) : List Nat :=
  ofFirst (fun special => Nat.beq special.1 code) Prod.snd [upperRuns.codeOf code] upperSpecials

theorem upperCodes_eq (code : Nat) :
    upperCodes code = (upperSpecials.lookup code).getD [upperRuns.codeOf code] := by
  rw [upperCodes, ofFirst_eq, lookup_eq_find?]

/-- The letters whose lower case goes back to another upper case: the dotted `İ`, the theta, the
sharp `ẞ`, and the signs of ohm, kelvin and ångström. -/
def strayLetters : List Char :=
  ['\u0130', '\u03F4', '\u1E9E', '\u2126', '\u212A', '\u212B']

/-- What upper case is made of. The zero stands for what is no character. -/
def upperImages : List Nat :=
  0 :: upperRuns.flatMap (fun run => (members run).map (imageOf run))
    ++ upperSpecials.flatMap Prod.snd

/-- The code points that are not their own upper case. -/
def upperSources : List Nat :=
  upperRuns.flatMap members ++ upperSpecials.map Prod.fst

/-- What lower case rests on, read off the tables. -/
structure LowerCaseFits : Prop where
  /-- Only the first run holds some of the first letters, which agrees with what is said of them
  apart. -/
  behindAscii : ∀ run ∈ lowerRuns.tail, 128 ≤ run.1
  firstRun : ∀ code < 128, (Char.ofNat code).toLower = Char.ofNat
    (if holds code (0x41, 0x5A, 1, 32) then imageOf (0x41, 0x5A, 1, 32) code else code)
  valid : ∀ run ∈ lowerRuns, imageOf run run.2.1 < 0xD800 ∨
    0xDFFF < imageOf run run.1 ∧ imageOf run run.2.1 < 0x110000
  /-- Each run is sent back as a whole, or its members are compared one by one. -/
  sentBack : (lowerRuns.all fun run => isSentBack upperRuns run ||
    (members run).all fun code => (strayLetters.map Char.toNat).contains code ||
      upperCodes (imageOf run code) == upperCodes code) = true
  partnersShareUpper : ∀ entry ∈ lowerPartners, ∀ code ∈ entry.2,
    upperCodes code = upperCodes entry.1

theorem lowerCaseFits : LowerCaseFits := by
  constructor <;> decide +kernel

/-- What upper case rests on, read off the tables. -/
structure UpperCaseFits : Prop where
  /-- Only the first run holds some of the first letters, which agrees with what is said of them
  apart. -/
  behindAscii : ∀ run ∈ upperRuns.tail, 128 ≤ run.1
  firstRun : ∀ code < 128, (Char.ofNat code).toUpper = Char.ofNat
    (if holds code (0x61, 0x7A, 1, -32) then imageOf (0x61, 0x7A, 1, -32) code else code)
  specialsBehindAscii : ∀ special ∈ upperSpecials, 128 ≤ special.1
  specialsNonempty : ∀ special ∈ upperSpecials, special.2 ≠ []
  spaced : ∀ run ∈ upperRuns, 0 < run.2.2.1
  kept : ∀ run ∈ upperRuns, 0 ≤ run.1 + run.2.2.2
  /-- No code point is in two of these: the stray letters, the images, and the members of the runs
  and of the exceptions. -/
  apart : [codeBits (strayLetters.map Char.toNat),
      codeBits [0] ||| upperRuns.imageBits ||| codeBits (upperSpecials.flatMap Prod.snd),
      upperRuns.memberBits, codeBits (upperSpecials.map Prod.fst)].Pairwise
    fun left right => left &&& right = 0

theorem upperCaseFits : UpperCaseFits := by
  constructor <;> decide +kernel

theorem codeBits_upperImages : codeBits upperImages =
    codeBits [0] ||| upperRuns.imageBits ||| codeBits (upperSpecials.flatMap Prod.snd) := by
  rw [upperImages, codeBits_append, ← List.singleton_append, codeBits_append,
    codeBits_images upperCaseFits.spaced upperCaseFits.kept]

theorem tables_disjoint :
    (strayLetters.map Char.toNat).Disjoint upperImages ∧
      (strayLetters.map Char.toNat).Disjoint upperSources ∧
      upperImages.Disjoint upperSources ∧
      (upperRuns.flatMap members).Disjoint (upperSpecials.map Prod.fst) := by
  have apart := upperCaseFits.apart
  rw [← codeBits_upperImages, ← codeBits_members upperCaseFits.spaced] at apart
  simp only [List.pairwise_cons, List.forall_mem_cons] at apart
  obtain ⟨⟨strayImage, strayRun, straySpecial, -⟩, ⟨imageRun, imageSpecial, -⟩,
    ⟨runSpecial, -⟩, -⟩ := apart
  have straySource := List.disjoint_append_right.mpr
    ⟨disjoint_of_codeBits strayRun, disjoint_of_codeBits straySpecial⟩
  have imageSource := List.disjoint_append_right.mpr
    ⟨disjoint_of_codeBits imageRun, disjoint_of_codeBits imageSpecial⟩
  exact ⟨disjoint_of_codeBits strayImage, straySource, imageSource,
    disjoint_of_codeBits runSpecial⟩

/-! ## The maps on code points -/

theorem toNat_ofNat (code : Nat) :
    (Char.ofNat code).toNat = if code.isValidChar then code else 0 := by
  by_cases valid : code.isValidChar
  · rw [Char.ofNat, dif_pos valid, if_pos valid]
    rfl
  · rw [Char.ofNat, dif_neg valid, if_neg valid]
    rfl

theorem toUpper_eq_codeOf {c : Char} (ascii : c.toNat < 128) :
    c.toUpper = Char.ofNat (upperRuns.codeOf c.toNat) := by
  have first := @codeOf_cons (0x61, 0x7A, 1, -32) _ _ fun run member =>
    ascii.trans_le (upperCaseFits.behindAscii run member)
  have known := upperCaseFits.firstRun c.toNat ascii
  rwa [Char.ofNat_toNat, ← first] at known

theorem toLower_eq_codeOf {c : Char} (ascii : c.toNat < 128) :
    c.toLower = Char.ofNat (lowerRuns.codeOf c.toNat) := by
  have first := @codeOf_cons (0x41, 0x5A, 1, 32) _ _ fun run member =>
    ascii.trans_le (lowerCaseFits.behindAscii run member)
  have known := lowerCaseFits.firstRun c.toNat ascii
  rwa [Char.ofNat_toNat, ← first] at known

theorem upperLetter_eq (c : Char) : upperLetter c = (upperCodes c.toNat).map Char.ofNat := by
  rw [upperLetter, upperCodes_eq]
  split
  · next ascii =>
    have notSpecial : upperSpecials.lookup c.toNat = none := by
      refine List.lookup_eq_none_iff.mpr fun special member => ?_
      have behind := upperCaseFits.specialsBehindAscii special member
      exact bne_iff_ne.mpr (by omega)
    rw [notSpecial, toUpper_eq_codeOf ascii]
    rfl
  · rw [codeOf_eq]
    cases upperSpecials.lookup c.toNat with
    | some codes => rfl
    | none =>
      cases upperRuns.image? c.toNat with
      | some image => rfl
      | none => simp

theorem lowerLetter_eq (c : Char) : lowerLetter c = Char.ofNat (lowerRuns.codeOf c.toNat) := by
  rw [lowerLetter]
  split
  · next ascii => exact toLower_eq_codeOf ascii
  · rw [codeOf_eq]
    cases lowerRuns.image? c.toNat with
    | some image => rfl
    | none => simp

theorem toNat_lowerLetter (c : Char) : (lowerLetter c).toNat = lowerRuns.codeOf c.toNat := by
  rw [lowerLetter_eq, codeOf_eq]
  cases found : lowerRuns.image? c.toNat with
  | none => simp
  | some image =>
    obtain ⟨run, known, held, rfl⟩ := exists_of_image? found
    obtain ⟨low, high⟩ := imageOf_bounds held
    have valid : (imageOf run c.toNat).isValidChar := (lowerCaseFits.valid run known).imp
      (fun below => high.trans_lt below)
      fun ⟨above, below⟩ => ⟨above.trans_le low, high.trans_lt below⟩
    rw [Option.getD_some, toNat_ofNat, if_pos valid]

/-! ## Upper case is stable -/

theorem mem_upperSources_of_image? {code image : Nat} (found : upperRuns.image? code = some image) :
    code ∈ upperSources ∧ image ∈ upperImages := by
  obtain ⟨run, known, held, rfl⟩ := exists_of_image? found
  refine ⟨List.mem_append_left _ (List.mem_flatMap_of_mem known (mem_members held)), ?_⟩
  exact List.mem_append_left _ (List.mem_cons_of_mem 0 (List.mem_flatMap_of_mem known
    (List.mem_map_of_mem (mem_members held))))

theorem mem_of_lookup_code {Content : Type} {table : List (Nat × Content)} {code : Nat}
    {content : Content} (found : table.lookup code = some content) : (code, content) ∈ table := by
  obtain ⟨before, behind, rfl, -⟩ := List.lookup_eq_some_iff.mp found
  exact List.mem_append_right before List.mem_cons_self

/-- A code point is its own upper case, or it is one of the sources and its upper case is made of
images. -/
theorem upperCodes_cases (code : Nat) :
    upperCodes code = [code] ∨ code ∈ upperSources ∧ upperCodes code ⊆ upperImages := by
  rw [upperCodes_eq, codeOf_eq]
  cases special : upperSpecials.lookup code with
  | some codes =>
    have member := mem_of_lookup_code special
    refine .inr ⟨List.mem_append_right _ (List.mem_map_of_mem member), fun image inCodes => ?_⟩
    exact List.mem_append_right _ (List.mem_flatMap_of_mem member inCodes)
  | none =>
    cases found : upperRuns.image? code with
    | none => exact .inl rfl
    | some image =>
      obtain ⟨isSource, isImage⟩ := mem_upperSources_of_image? found
      exact .inr ⟨isSource, List.cons_subset.mpr ⟨isImage, List.nil_subset _⟩⟩

theorem upperCodes_of_not_mem {code : Nat} (noSource : code ∉ upperSources) :
    upperCodes code = [code] :=
  (upperCodes_cases code).resolve_right fun ⟨isSource, _⟩ => noSource isSource

/-- An image is its own upper case. -/
theorem upperCodes_of_isImage {code : Nat} (isImage : code ∈ upperImages) :
    upperCodes code = [code] :=
  upperCodes_of_not_mem fun isSource => tables_disjoint.2.2.1 isImage isSource

/-- The upper case of a letter is the letter, or it is made of images. -/
theorem upperLetter_cases (c : Char) :
    upperLetter c = [c] ∨ ∀ d ∈ upperLetter c, d.toNat ∈ upperImages := by
  rw [upperLetter_eq]
  rcases upperCodes_cases c.toNat with itself | ⟨-, images⟩
  · exact .inl (by simp [itself])
  · refine .inr fun d member => ?_
    obtain ⟨code, inCodes, rfl⟩ := List.mem_map.mp member
    rw [toNat_ofNat]
    split
    · exact images inCodes
    · exact List.mem_append_left _ List.mem_cons_self

/-- Upper case is its own upper case. -/
theorem upperLetter_of_mem_upperLetter {c d : Char} (member : d ∈ upperLetter c) :
    upperLetter d = [d] := by
  rcases upperLetter_cases c with itself | images
  · rw [itself, List.mem_singleton] at member
    rw [member, itself]
  · rw [upperLetter_eq, upperCodes_of_isImage (images d member)]
    simp

theorem upperLetter_of_mem_toUpper {text : List Char} {c : Char} (member : c ∈ toUpper text) :
    upperLetter c = [c] := by
  obtain ⟨d, -, inUpper⟩ := List.mem_flatMap.mp member
  exact upperLetter_of_mem_upperLetter inUpper

theorem toUpper_of_fixed {text : List Char} (fixed : ∀ c ∈ text, upperLetter c = [c]) :
    toUpper text = text := by
  rw [toUpper, List.flatMap_congr fixed, List.flatMap_singleton']

/-! ## Letters that count as the same -/

theorem upperLetter_of_stray {c : Char} (stray : c ∈ strayLetters) : upperLetter c = [c] := by
  have noSource : c.toNat ∉ upperSources := fun isSource =>
    tables_disjoint.2.1 (List.mem_map_of_mem stray) isSource
  rw [upperLetter_eq, upperCodes_of_not_mem noSource]
  simp

/-- What the runs hold is in none of the exceptions. -/
theorem upperCodes_of_image? {code image : Nat} (found : upperRuns.image? code = some image) :
    upperCodes code = [image] := by
  obtain ⟨run, known, held, -⟩ := exists_of_image? found
  have inRun := List.mem_flatMap_of_mem known (mem_members held)
  have noSpecial : upperSpecials.lookup code = none := by
    refine List.lookup_eq_none_iff.mpr fun special member => bne_iff_ne.mpr ?_
    rintro rfl
    exact tables_disjoint.2.2.2 inRun (List.mem_map_of_mem member)
  rw [upperCodes_eq, noSpecial, codeOf_eq, found]
  rfl

/-- Upper case undoes lower case, but for the stray letters. -/
theorem upperCodes_codeOf {code : Nat} (plain : code ∉ strayLetters.map Char.toNat) :
    upperCodes (lowerRuns.codeOf code) = upperCodes code := by
  rw [codeOf_eq]
  cases found : lowerRuns.image? code with
  | none => rfl
  | some image =>
    obtain ⟨run, known, held, rfl⟩ := exists_of_image? found
    rw [Option.getD_some]
    rcases Bool.or_eq_true_iff.mp (List.all_eq_true.mp lowerCaseFits.sentBack run known) with
      sent | compared
    · have back := image?_imageOf sent held
      have isImage := (mem_upperSources_of_image? back).2
      rw [upperCodes_of_image? back, upperCodes_of_isImage isImage]
    · have same := List.all_eq_true.mp compared code (mem_members held)
      rw [Bool.or_eq_true, List.contains_iff_mem, beq_iff_eq] at same
      exact same.resolve_left plain

theorem upperLetter_lowerLetter {c : Char} (plain : c ∉ strayLetters) :
    upperLetter (lowerLetter c) = upperLetter c := by
  have plainCode : c.toNat ∉ strayLetters.map Char.toNat := by
    rwa [List.mem_map_of_injective fun _ _ => Char.toNat_inj.mp]
  rw [upperLetter_eq, upperLetter_eq, toNat_lowerLetter, upperCodes_codeOf plainCode]

theorem upperLetter_of_partner {c d : Char} (partner : (partners c.toNat).contains d.toNat = true) :
    upperLetter d = upperLetter c := by
  rw [partners] at partner
  cases found : lowerPartners.lookup c.toNat with
  | none => simp [found] at partner
  | some codes =>
    rw [found, Option.getD_some, List.contains_iff_mem] at partner
    rw [upperLetter_eq, upperLetter_eq,
      lowerCaseFits.partnersShareUpper _ (mem_of_lookup_code found) _ partner]

/-- Letters that are the same when case does not matter have one upper case, unless one of them is a
stray letter. -/
theorem upperLetter_eq_of_sameLetter {c d : Char} (same : sameLetter c d = true)
    (plain : c ∉ strayLetters) (plain' : d ∉ strayLetters) : upperLetter d = upperLetter c := by
  rw [← upperLetter_lowerLetter plain, ← upperLetter_lowerLetter plain']
  rw [sameLetter, Bool.or_eq_true, beq_iff_eq] at same
  rcases same with same | partner
  · rw [Char.toNat_inj.mp same]
  · exact upperLetter_of_partner partner

/-- A letter of a tag and the letter that stands for it: the same one, or neither is a stray
letter. -/
def SpelledPlainly (c d : Char) : Prop :=
  c = d ∨ c ∉ strayLetters ∧ d ∉ strayLetters

theorem upperLetter_eq_iff {c d : Char} (same : sameLetter c d = true)
    (fixed : upperLetter c = [c]) : upperLetter d = [c] ↔ SpelledPlainly c d := by
  constructor
  · intro upper
    by_contra strays
    obtain ⟨differ, stray⟩ := not_or.mp strays
    have notStray : d ∉ strayLetters := by
      intro isStray
      exact differ (List.singleton_inj.mp (upper.symm.trans (upperLetter_of_stray isStray)))
    have isStray : c ∈ strayLetters := by
      by_contra plain
      exact stray ⟨plain, notStray⟩
    rcases upperLetter_cases d with itself | images
    · exact differ (List.singleton_inj.mp (upper.symm.trans itself))
    · exact tables_disjoint.1 (List.mem_map_of_mem isStray) (images c (by simp [upper]))
  · rintro (rfl | ⟨plain, plain'⟩)
    · exact fixed
    · rw [upperLetter_eq_of_sameLetter same plain plain', fixed]

theorem upperLetter_ne_nil (c : Char) : upperLetter c ≠ [] := by
  rw [upperLetter_eq, upperCodes_eq, ne_eq, List.map_eq_nil_iff]
  cases found : upperSpecials.lookup c.toNat with
  | none => exact List.cons_ne_nil _ _
  | some codes => exact upperCaseFits.specialsNonempty _ (mem_of_lookup_code found)

theorem length_le_toUpper (text : List Char) : text.length ≤ (toUpper text).length := by
  induction text with
  | nil => exact Nat.le_refl 0
  | cons c rest induction =>
    have nonempty := List.length_pos_iff.mpr (upperLetter_ne_nil c)
    rw [toUpper, List.flatMap_cons, ← toUpper, List.length_append, List.length_cons]
    omega

/-- The upper case of what stands for a text in upper case is that text as long as it is spelled
plainly, and only then. -/
theorem toUpper_eq_iff {tag written : List Char}
    (same : List.Forall₂ (fun c d => sameLetter c d = true) tag written)
    (fixed : ∀ c ∈ tag, upperLetter c = [c]) :
    toUpper written = tag ↔ List.Forall₂ SpelledPlainly tag written := by
  induction same with
  | nil => exact iff_of_true rfl .nil
  | @cons c d tag written same others induction =>
    obtain ⟨fixedFirst, fixedOthers⟩ := List.forall_mem_cons.mp fixed
    rw [List.forall₂_cons, ← upperLetter_eq_iff same fixedFirst, ← induction fixedOthers,
      toUpper, List.flatMap_cons, ← toUpper]
    constructor
    · intro upper
      obtain ⟨first, further, split⟩ := List.exists_cons_of_ne_nil (upperLetter_ne_nil d)
      rw [split, List.cons_append, List.cons.injEq] at upper
      obtain ⟨rfl, rest⟩ := upper
      -- Every letter has an upper case of its own, so none of them is left for a second one.
      have noFurther : further = [] := by
        have long := length_le_toUpper written
        have sameLength := others.length_eq
        rw [← rest, List.length_append] at sameLength
        exact List.length_eq_zero_iff.mp (by omega)
      subst noFurther
      exact ⟨split, rest⟩
    · rintro ⟨first, rest⟩
      rw [first, rest, List.singleton_append]

/-! ## Lower case in ASCII

Only one letter behind ASCII can stand in a text whose lower case is ASCII, the sign of kelvin; so
such a lower case is taken letter by letter, whatever stands around. -/

/-- The sign of kelvin, whose lower case is a `k`. -/
def kelvinSign : Char := '\u212A'

/-- A character and its lower case, where that is one ASCII character. -/
def LowersTo (c d : Char) : Prop :=
  c.toNat < 128 ∧ d = c.toLower ∨ c = kelvinSign ∧ d = 'k'

theorem toNat_toLower_lt {c : Char} (ascii : c.toNat < 128) : c.toLower.toNat < 128 := by
  have each : ∀ code < 128, (Char.ofNat code).toLower.toNat < 128 := by decide +kernel
  have known := each c.toNat ascii
  rwa [Char.ofNat_toNat] at known

/-- Two runs go from behind ASCII back into it: the dotted `İ`, which is lowered apart, and the sign
of kelvin. -/
theorem lowerRuns_behindAscii : ∀ run ∈ lowerRuns.tail, 128 ≤ imageOf run run.1 ∨
    run = (0x130, 0x130, 1, -199) ∨ run = (0x212A, 0x212A, 1, -8383) := by
  decide +kernel

theorem toNat_lowerLetter_of_not_ascii {c : Char} (behind : 128 ≤ c.toNat) (notDotted : c ≠ 'İ')
    (notKelvin : c ≠ kelvinSign) : 128 ≤ (lowerLetter c).toNat := by
  rw [toNat_lowerLetter, codeOf_eq]
  cases found : lowerRuns.image? c.toNat with
  | none => exact behind
  | some image =>
    obtain ⟨run, known, held, rfl⟩ := exists_of_image? found
    rw [Option.getD_some]
    have inTail : run ∈ lowerRuns.tail := by
      rcases List.mem_cons.mp known with rfl | inTail
      · have ended := (holds_iff.mp held).2.1
        omega
      · exact inTail
    rcases lowerRuns_behindAscii run inTail with stays | rfl | rfl
    · exact stays.trans (imageOf_bounds held).1
    · obtain ⟨begun, ended, -⟩ := holds_iff.mp held
      have same : c.toNat = 'İ'.toNat := Nat.le_antisymm ended begun
      exact absurd (Char.toNat_inj.mp same) notDotted
    · obtain ⟨begun, ended, -⟩ := holds_iff.mp held
      have same : c.toNat = kelvinSign.toNat := Nat.le_antisymm ended begun
      exact absurd (Char.toNat_inj.mp same) notKelvin

theorem lowerBetween_of_ascii {c : Char} (ascii : c.toNat < 128) (before after : List Char) :
    lowerBetween before c after = [c.toLower] := by
  have notSigma : c ≠ 'Σ' := fun same => absurd (same ▸ ascii) (by decide)
  have notDotted : c ≠ 'İ' := fun same => absurd (same ▸ ascii) (by decide)
  rw [lowerBetween, if_neg notSigma, if_neg notDotted, lowerLetter, if_pos ascii]

theorem lowerBetween_of_lowersTo {c d : Char} (lowers : LowersTo c d) (before after : List Char) :
    lowerBetween before c after = [d] := by
  rcases lowers with ⟨ascii, rfl⟩ | ⟨rfl, rfl⟩
  · exact lowerBetween_of_ascii ascii before after
  · have lowered : lowerLetter kelvinSign = 'k' := by decide +kernel
    rw [lowerBetween, if_neg (by decide), if_neg (by decide), lowered]

/-- What a character is lowered to holds no character behind ASCII just where it is one that lowers
to a single ASCII character. -/
theorem exists_lowersTo_of_ascii {before after : List Char} {c : Char}
    (ascii : ∀ d ∈ lowerBetween before c after, d.toNat < 128) :
    ∃ d, LowersTo c d ∧ lowerBetween before c after = [d] := by
  have lowers : ∃ d, LowersTo c d := by
    by_contra none
    have behind : 128 ≤ c.toNat := by
      by_contra inAscii
      exact none ⟨c.toLower, .inl ⟨by omega, rfl⟩⟩
    have notKelvin : c ≠ kelvinSign := fun same => none ⟨'k', .inr ⟨same, rfl⟩⟩
    rw [lowerBetween] at ascii
    split at ascii
    · have small := ascii _ (List.mem_singleton_self _)
      revert small
      split <;> decide
    · split at ascii
      · exact absurd (ascii '\u0307' (by decide)) (by decide)
      · next notDotted =>
        have lowered := toNat_lowerLetter_of_not_ascii behind notDotted notKelvin
        have small := ascii _ (List.mem_singleton_self _)
        omega
  obtain ⟨d, lowers⟩ := lowers
  exact ⟨d, lowers, lowerBetween_of_lowersTo lowers before after⟩

theorem from_eq_iff {text name : List Char} (ascii : ∀ d ∈ name, d.toNat < 128)
    (before : List Char) :
    toLower.from before text = name ↔ List.Forall₂ LowersTo text name := by
  induction text generalizing before name with
  | nil =>
    rw [toLower.from, List.forall₂_nil_left_iff]
    exact eq_comm
  | cons c text induction =>
    rw [toLower.from]
    constructor
    · rintro rfl
      obtain ⟨inFirst, inRest⟩ := List.forall_mem_append.mp ascii
      obtain ⟨d, lowers, single⟩ := exists_lowersTo_of_ascii inFirst
      rw [single]
      exact .cons lowers ((induction inRest _).mp rfl)
    · rintro (_ | ⟨lowers, others⟩)
      rw [lowerBetween_of_lowersTo lowers, List.singleton_append, List.cons.injEq]
      exact ⟨rfl, (induction (List.forall_mem_cons.mp ascii).2 _).mpr others⟩

/-- A text has a given lower case in ASCII just where it has it letter by letter. -/
theorem toLower_eq_iff {text name : List Char} (ascii : ∀ d ∈ name, d.toNat < 128) :
    toLower text = name ↔ List.Forall₂ LowersTo text name :=
  from_eq_iff ascii []

theorem toLower_of_ascii {text : List Char} (ascii : ∀ c ∈ text, c.toNat < 128) :
    toLower text = text.map Char.toLower := by
  refine (toLower_eq_iff ?_).mpr ?_
  · rw [List.forall_mem_map]
    exact fun c member => toNat_toLower_lt (ascii c member)
  · rw [List.forall₂_map_right_iff, List.forall₂_same]
    exact fun c member => .inl ⟨ascii c member, rfl⟩

end DocAudit.Text
