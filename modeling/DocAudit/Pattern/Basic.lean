import DocAudit.Text.Blank
import DocAudit.Text.Case
import DocAudit.Text.Digit
import DocAudit.Text.Word

/-!
Regular expressions as trees. Flags have been resolved: each part says itself how it treats case
and which characters its classes hold.
-/

namespace DocAudit.Pattern

/-- Whether case matters, and if not, for which letters. -/
inductive CaseMode where
  | exact
  | ascii
  | unicode
  deriving DecidableEq, Repr

inductive Category where
  | digit
  | blank
  | word
  deriving DecidableEq, Repr

/-- What a set of characters is made of. Characters are code points here, since an escape may
name one that no text holds. -/
inductive SetItem where
  | single (code : Nat)
  | range (first last : Nat)
  | category (kind : Category) (negated : Bool)
  deriving DecidableEq, Repr

/-- A test that one character passes or fails. -/
inductive Single where
  | any
  | anyInLine
  | set (negated : Bool) (items : List SetItem) (case : CaseMode) (asciiOnly : Bool)
  deriving DecidableEq, Repr

inductive Anchor where
  | textStart
  | lineStart
  | textEnd
  | lastLineEnd
  | lineEnd
  | boundary (asciiOnly : Bool)
  | noBoundary (asciiOnly : Bool)
  deriving DecidableEq, Repr

inductive Eagerness where
  | greedy
  | lazy
  | possessive
  deriving DecidableEq, Repr

/-- Least and greatest number of characters that a part can match; `unbounded` stands for no
greatest number. -/
structure Width where
  least : Nat
  most : Nat
  deriving DecidableEq, Repr

def unbounded : Nat := Nat.pow 2 64

def Width.capped (width : Width) : Width where
  least := min width.least unbounded
  most := min width.most unbounded

/-- A part of a regular expression. A `group` only brackets its body; a `capture` records what
the body matched. A reference carries the width of the capture it refers to. -/
inductive Part where
  | empty
  | one (test : Single)
  | anchor (place : Anchor)
  | group (body : Part)
  | capture (index : Nat) (body : Part)
  | sequence (first second : Part)
  | choice (first second : Part)
  | repeated (eagerness : Eagerness) (least : Nat) (most : Option Nat) (body : Part)
  | reference (index : Nat) (width : Width) (case : CaseMode)
  | lookAhead (positive : Bool) (body : Part)
  | lookBehind (positive : Bool) (body : Part)
  | atomic (body : Part)
  | conditional (index : Nat) (met unmet : Part)
  deriving Repr

namespace Part

def ofList : List Part → Part
  | [] => .empty
  | [part] => part
  | part :: rest => .sequence part (ofList rest)

def width : Part → Width
  | .empty => ⟨0, 0⟩
  | .one _ => ⟨1, 1⟩
  | .anchor _ => ⟨0, 0⟩
  | .group body => body.width
  | .capture _ body => body.width
  | .sequence first second =>
    Width.capped ⟨first.width.least + second.width.least, first.width.most + second.width.most⟩
  | .choice first second =>
    ⟨min first.width.least second.width.least, max first.width.most second.width.most⟩
  | .repeated _ least most body =>
    let most := match most with
      | some most => body.width.most * most
      | none => if body.width.most = 0 then 0 else unbounded
    Width.capped ⟨body.width.least * least, most⟩
  | .reference _ width _ => width
  | .lookAhead .. => ⟨0, 0⟩
  | .lookBehind .. => ⟨0, 0⟩
  | .atomic body => body.width
  | .conditional _ met unmet =>
    ⟨min met.width.least unmet.width.least, max met.width.most unmet.width.most⟩

end Part

def Category.holds (kind : Category) (asciiOnly : Bool) (c : Char) : Bool :=
  match kind with
  | .digit => if asciiOnly then c.isDigit else Text.isDigit c
  | .blank =>
    if asciiOnly then c = ' ' || (9 ≤ c.toNat && c.toNat ≤ 13) else Text.isBlank c
  | .word =>
    if asciiOnly then c.isAlphanum || c = '_' else Text.isWord c

/-- The code points that count as `c`. -/
def CaseMode.variants (mode : CaseMode) (c : Char) : List Nat :=
  match mode with
  | .exact => [c.toNat]
  | .ascii => [c.toLower.toNat, c.toUpper.toNat]
  | .unicode => Text.caseVariants c

def SetItem.holds (item : SetItem) (variants : List Nat) (asciiOnly : Bool) (c : Char) : Bool :=
  match item with
  | .single code => variants.contains code
  | .range first last => variants.any fun code => first ≤ code && code ≤ last
  | .category kind negated => kind.holds asciiOnly c != negated

def Single.accepts (test : Single) (c : Char) : Bool :=
  match test with
  | .any => true
  | .anyInLine => c != '\n'
  | .set negated items case asciiOnly =>
    let variants := case.variants c
    items.any (·.holds variants asciiOnly c) != negated

end DocAudit.Pattern
