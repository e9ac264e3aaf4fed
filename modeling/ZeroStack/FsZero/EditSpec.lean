import ZeroStack.Wire.Decimal
import ZeroStack.Wire.Pieces

/-! `fszero-core/src/edit_spec.rs`: an edit in one text, its target, the old text and the new one. -/

open Wire List

namespace FsZero

inductive EditTarget where
  | path (path : List Char)
  | viewId (id : UInt32)
  | lastView
  | contentRef (key : List Char)
  deriving DecidableEq

structure EditSpec where
  target : EditTarget
  old : List Char
  new : List Char
  deriving DecidableEq

def findPipe : List Char → Option (List Char × List Char)
  | [] => none
  -- the source skips a byte; the other bytes of a longer character are neither `|` nor a backslash
  | '\\' :: c :: rest => (findPipe rest).map fun parts => ('\\' :: c :: parts.1, parts.2)
  | '|' :: rest => some ([], rest)
  | c :: rest => (findPipe rest).map fun parts => (c :: parts.1, parts.2)

def unescape : List Char → List Char
  | [] => []
  | '\\' :: c :: rest => if c = '\\' ∨ c = '|' then c :: unescape rest else '\\' :: c :: unescape rest
  | c :: rest => c :: unescape rest

def splitEscapedPipe (s : List Char) : Option (List Char × List Char) :=
  (findPipe s).map fun parts => (unescape parts.1, parts.2)

def contentScheme : List Char := ['z', ':', '/', '/']

def retiredSchemes : List (List Char) := ['f', 'g', 't'].map (· :: contentScheme)

variable (spec : List Char)

/-- The target and the replacement. Of a content reference the separator is taken as well. -/
def splitTarget : Option (List Char × List Char) :=
  if contentScheme.isPrefixOf spec then
    (splitOnce [':'] (spec.drop 4)).map fun parts => (spec.take (5 + parts.1.length), parts.2)
  else splitOnce [':'] spec

def parseTarget (first : List Char) : EditTarget :=
  if contentScheme.isPrefixOf first then .contentRef first
  else if first = ['l', 'a', 's', 't'] ∨ first = ['l', 'a', 's', 't', 'R'] then .lastView
  else if first.all Char.isDigit then .viewId (.ofNat ((readDecimal UInt32.size first).toOption.getD 0))
  else .path first

def parseEditSpec : Except String EditSpec :=
  if retiredSchemes.any (·.isPrefixOf spec) then
    .error "retired product scheme; live content refs are z://blob/ or unprefixed keys"
  else match splitTarget spec with
    | none => .error "bad spec"
    | some (first, repl) =>
      match splitEscapedPipe repl with
      | none => .error "bad repl"
      | some (old, new) => .ok ⟨parseTarget first, old, new⟩

def esc (text : List Char) : List Char := text.flatMap fun c => if c = '\\' ∨ c = '|' then ['\\', c] else [c]

def EditTarget.text : EditTarget → List Char
  | .path text | .contentRef text => text
  | .viewId id => decimal id.toNat
  | .lastView => ['l', 'a', 's', 't']

def EditSpec.text (e : EditSpec) : List Char := e.target.text ++ ':' :: (esc e.old ++ '|' :: e.new)

def hasScheme : Bool := (contentScheme :: retiredSchemes).any (·.isPrefixOf spec)

/-- What an edit is written for: a path, the number of a view or a content reference, without a further `:`. -/
def EditTarget.Named : EditTarget → Prop
  | .path text => ':' ∉ text ∧ ¬text.all Char.isDigit
  | .viewId _ => True
  | .contentRef key => ∃ rest, ':' ∉ rest ∧ key = contentScheme ++ rest
  | .lastView => False

/-- A view, or a path that means no view. The text as a whole begins with no scheme, as that of the path `z` with the
old text `//` would. -/
def EditSpec.Expressible (e : EditSpec) : Prop :=
  match e.target with
  | .path path => path ≠ ['l', 'a', 's', 't'] ∧ path ≠ ['l', 'a', 's', 't', 'R'] ∧ hasScheme e.text = false
  | .viewId _ => True
  | _ => False

structure NamesView (digits : List Char) (target : EditTarget) : Prop where
  nonempty : digits ≠ []
  fits : Nat.ofDigitChars 10 digits 0 < UInt32.size
  view : target = .viewId (.ofNat (Nat.ofDigitChars 10 digits 0))

variable {old new digits repl first : List Char}

theorem findPipe_esc : findPipe (esc old ++ '|' :: new) = some (esc old, new) := by
  induction old with
  | nil => rfl
  | cons c old ih =>
    unfold esc at ih ⊢
    rw [flatMap_cons]
    split_ifs with hspecial
    · simp [findPipe, ih]
    · rw [not_or] at hspecial
      simp [findPipe, ih, hspecial]

theorem unescape_esc : unescape (esc old) = old := by
  induction old with
  | nil => rfl
  | cons c old ih =>
    unfold esc at ih ⊢
    rw [flatMap_cons]
    split_ifs with hspecial
    · simp [unescape, ih, hspecial]
    · rw [not_or] at hspecial
      simp [unescape, ih, hspecial]

theorem parseEditSpec_eq (hfirst : ':' ∉ first) (hscheme : hasScheme (first ++ ':' :: repl) = false) :
    parseEditSpec (first ++ ':' :: repl) = match splitEscapedPipe repl with
      | none => .error "bad repl"
      | some (old, new) => .ok ⟨parseTarget first, old, new⟩ := by
  rw [hasScheme, any_cons, Bool.or_eq_false_iff] at hscheme
  have hsplit : splitTarget (first ++ ':' :: repl) = some (first, repl) := by
    rw [splitTarget, hscheme.1]
    exact splitOnce_append_cons hfirst
  rw [parseEditSpec, hscheme.2, hsplit]
  rfl

theorem parseEditSpec_text {e : EditSpec} (hfirst : ':' ∉ e.target.text) (hscheme : hasScheme e.text = false)
    (htarget : parseTarget e.target.text = e.target) : parseEditSpec e.text = .ok e := by
  have hsplit : splitEscapedPipe (esc e.old ++ '|' :: e.new) = some (e.old, e.new) := by
    rw [splitEscapedPipe, findPipe_esc, Option.map_some, unescape_esc]
  rw [EditSpec.text, parseEditSpec_eq hfirst hscheme, hsplit, htarget]

theorem digits_plain (hdigits : ∀ c ∈ digits, c.isDigit = true) :
    ':' ∉ digits ∧ hasScheme (digits ++ ':' :: repl) = false := by
  refine ⟨fun hmem => absurd (hdigits _ hmem) (by decide), ?_⟩
  cases digits with
  | nil => rfl
  | cons c rest =>
    have hhead : ∀ letter, letter.isDigit = false → letter ≠ c := by
      rintro letter hletter rfl
      rw [hdigits letter mem_cons_self] at hletter
      cases hletter
    simp [hasScheme, contentScheme, retiredSchemes, List.isPrefixOf, hhead]

theorem parseTarget_digits (hdigits : ∀ c ∈ digits, c.isDigit = true) :
    parseTarget digits = .viewId (.ofNat ((readDecimal UInt32.size digits).toOption.getD 0)) := by
  have hall : digits.all Char.isDigit = true := all_eq_true.mpr hdigits
  have hletter : ∀ letter ∈ digits, ∀ other : Char, other.isDigit = false → letter ≠ other := by
    rintro letter hmem other hother rfl
    rw [hdigits letter hmem] at hother
    cases hother
  have hcontent : ¬contentScheme.isPrefixOf digits := fun h =>
    hletter 'z' ((List.isPrefixOf_iff_prefix.mp h).subset (by decide)) 'z' rfl rfl
  have hlast : ¬(digits = ['l', 'a', 's', 't'] ∨ digits = ['l', 'a', 's', 't', 'R']) := by
    rintro (rfl | rfl) <;> exact hletter 'l' (by decide) 'l' rfl rfl
  rw [parseTarget, if_neg hcontent, if_neg hlast, if_pos hall]

theorem target_of_scheme {e : EditSpec} {text : List Char} (hscheme : hasScheme text = true)
    (h : parseEditSpec text = .ok e) : contentScheme.isPrefixOf text ∧ ∃ parts,
      splitOnce [':'] (text.drop 4) = some parts ∧ e.target = .contentRef (text.take (5 + parts.1.length)) := by
  unfold parseEditSpec at h
  split_ifs at h with hretired
  rw [hasScheme, any_cons, (Bool.eq_false_iff.mpr hretired), Bool.or_false] at hscheme
  refine ⟨hscheme, ?_⟩
  rw [splitTarget, if_pos hscheme] at h
  cases hsplit : splitOnce [':'] (text.drop 4) with
  | none =>
    rw [hsplit] at h
    cases h
  | some parts =>
    have hlong : contentScheme.isPrefixOf (text.take (5 + parts.1.length)) = true := by
      rw [List.isPrefixOf_iff_prefix] at hscheme ⊢
      exact prefix_take_iff.mpr ⟨hscheme, Nat.le_add_right_of_le (by decide)⟩
    rw [hsplit] at h
    simp only [Option.map_some] at h
    cases hpipe : splitEscapedPipe parts.2 with
    | none =>
      rw [hpipe] at h
      cases h
    | some texts =>
      rw [hpipe] at h
      cases h
      exact ⟨parts, rfl, if_pos hlong⟩

theorem path_read_back_iff {path : List Char} (hcolon : ':' ∉ path) (hdigits : ¬path.all Char.isDigit) :
    parseEditSpec (EditSpec.text ⟨.path path, old, new⟩) = .ok ⟨.path path, old, new⟩ ↔
      EditSpec.Expressible ⟨.path path, old, new⟩ := by
  have hcontent : ¬contentScheme.isPrefixOf path := fun hp =>
    hcolon ((List.isPrefixOf_iff_prefix.mp hp).subset (by decide))
  constructor
  · intro h
    have hscheme : hasScheme (EditSpec.text ⟨.path path, old, new⟩) = false := by
      refine Bool.eq_false_iff.mpr fun hscheme => ?_
      obtain ⟨-, parts, -, htarget⟩ := target_of_scheme hscheme h
      cases htarget
    have hparse := parseEditSpec_eq hcolon hscheme
    rw [splitEscapedPipe, findPipe_esc] at hparse
    replace h := hparse.symm.trans h
    have htarget : parseTarget path = .path path := congrArg EditSpec.target (Except.ok.inj h)
    refine ⟨?_, ?_, hscheme⟩ <;> rintro rfl <;> exact absurd htarget (by decide)
  · rintro ⟨hlast, hlastR, hscheme⟩
    refine parseEditSpec_text hcolon hscheme ?_
    rw [EditTarget.text, parseTarget, if_neg hcontent, if_neg (not_or.mpr ⟨hlast, hlastR⟩), if_neg hdigits]

theorem view_read_back (id : UInt32) :
    parseEditSpec (EditSpec.text ⟨.viewId id, old, new⟩) = .ok ⟨.viewId id, old, new⟩ := by
  have hdigits : ∀ c ∈ decimal id.toNat, c.isDigit = true := fun c => isDigit_of_mem_decimal
  obtain ⟨hcolon, hscheme⟩ := digits_plain hdigits
  refine parseEditSpec_text hcolon hscheme ((parseTarget_digits hdigits).trans ?_)
  rw [readDecimal_of_digits (decimal_ne_nil id.toNat) hdigits, readDigits_decimal id.toNat_lt]
  simp [Except.toOption]

-- the separator is part of what is read, so that the reference gets longer
theorem content_misread {rest : List Char} (hrest : ':' ∉ rest) :
    parseEditSpec (EditSpec.text ⟨.contentRef (contentScheme ++ rest), old, new⟩) ≠
      .ok ⟨.contentRef (contentScheme ++ rest), old, new⟩ := by
  intro h
  have hscheme : hasScheme (EditSpec.text ⟨.contentRef (contentScheme ++ rest), old, new⟩) = true := rfl
  obtain ⟨-, parts, hsplit, htarget⟩ := target_of_scheme hscheme h
  have hparts : splitOnce [':'] (rest ++ ':' :: (esc old ++ '|' :: new)) = some parts := hsplit
  rw [splitOnce_append_cons hrest] at hparts
  cases hparts
  have hlength := congrArg length (EditTarget.contentRef.inj htarget)
  simp only [EditSpec.text, EditTarget.text, contentScheme, length_take, length_append, length_cons,
    length_nil] at hlength
  omega

theorem number_read_iff (hdigits : ∀ c ∈ digits, c.isDigit = true) :
    (∀ parsed, parseEditSpec (digits ++ ':' :: repl) = .ok parsed → NamesView digits parsed.target) ↔
      (findPipe repl ≠ none → digits ≠ [] ∧ Nat.ofDigitChars 10 digits 0 < UInt32.size) := by
  obtain ⟨hcolon, hscheme⟩ := digits_plain hdigits
  rw [parseEditSpec_eq hcolon hscheme, splitEscapedPipe, parseTarget_digits hdigits]
  constructor
  · intro h hpipe
    obtain ⟨parts, hparts⟩ := Option.ne_none_iff_exists'.mp hpipe
    rw [hparts] at h
    have hview := h _ rfl
    exact ⟨hview.nonempty, hview.fits⟩
  · intro h parsed hparsed
    cases hpipe : findPipe repl with
    | none =>
      rw [hpipe] at hparsed
      cases hparsed
    | some parts =>
      obtain ⟨hne, hfits⟩ := h (hpipe ▸ Option.some_ne_none parts)
      rw [hpipe] at hparsed
      cases hparsed
      refine ⟨hne, hfits, ?_⟩
      rw [readDecimal_of_digits hne hdigits, (readDigits_eq_ok_iff (by decide)).mpr ⟨hdigits, rfl, hfits⟩]
      rfl

/-- An edit is read back exactly if it can be expressed. A spec that begins with digits is refused or names the view of
their number, exactly unless it has an old and a new text, and the digits are none or too many. -/
theorem edit_specs_read_back (e : EditSpec) (hnamed : e.target.Named) (digits repl : List Char)
    (hdigits : ∀ c ∈ digits, c.isDigit = true) :
    (parseEditSpec e.text = .ok e ↔ e.Expressible) ∧
    ((∀ parsed, parseEditSpec (digits ++ ':' :: repl) = .ok parsed → NamesView digits parsed.target) ↔
      (findPipe repl ≠ none → digits ≠ [] ∧ Nat.ofDigitChars 10 digits 0 < UInt32.size)) := by
  refine ⟨?_, number_read_iff hdigits⟩
  obtain ⟨target, old, new⟩ := e
  cases target with
  | path path => exact path_read_back_iff hnamed.1 hnamed.2
  | viewId id => exact iff_of_true (view_read_back id) trivial
  | contentRef key =>
    obtain ⟨rest, hrest, rfl⟩ := hnamed
    exact iff_of_false (content_misread hrest) id
  | lastView => cases hnamed

theorem edit_specs_read_back_path : EditSpec.Expressible ⟨.path ['a'], ['|'], ['b']⟩ ∧
    parseEditSpec ['a', ':', '\\', '|', '|', 'b'] = .ok ⟨.path ['a'], ['|'], ['b']⟩ ∧
    NamesView ['7'] (.viewId 7) := by
  have hnamed : EditTarget.Named (.path ['a']) := by
    unfold EditTarget.Named
    decide
  have hview : parseEditSpec ['7', ':', '|'] = .ok ⟨.viewId 7, [], []⟩ := by decide
  obtain ⟨hedit, hnumber⟩ := edit_specs_read_back ⟨.path ['a'], ['|'], ['b']⟩ hnamed ['7'] ['|']
    (forall_mem_singleton.mpr rfl)
  have hread := hedit.mp (by decide)
  exact ⟨hread, hedit.mpr hread, hnumber.mpr (fun _ => by decide) _ hview⟩

/-- A content reference keeps the separator, the path `last` is taken for a view, the path `z` with the old text `//a:`
for a content reference, and no number or one that is too large for the view 0. -/
theorem edit_specs_misread :
    parseEditSpec "z://blob/a:b|c".toList = .ok ⟨.contentRef "z://blob/a:".toList, ['b'], ['c']⟩ ∧
    parseEditSpec "last:b|c".toList = .ok ⟨.lastView, ['b'], ['c']⟩ ∧
    parseEditSpec (EditSpec.text ⟨.path ['z'], "//a:".toList, ['c']⟩) = .ok ⟨.contentRef "z://a:".toList, [], ['c']⟩ ∧
    parseEditSpec ":b|c".toList = .ok ⟨.viewId 0, ['b'], ['c']⟩ ∧
    parseEditSpec "4294967296:b|c".toList = .ok ⟨.viewId 0, ['b'], ['c']⟩ := by
  decide

end FsZero
