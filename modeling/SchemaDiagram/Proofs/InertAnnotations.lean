import SchemaDiagram.Proofs.AnnotatedStatements

/-!
Annotations of elements. One that is put in behind the type of an element, in front of the semicolon or the brace that ends
it, changes nothing of what the file shows. Only a word as its value does: it takes in a brace that stands right behind it,
and then the body has no end.
-/

set_option autoImplicit false

namespace SchemaDiagram

open Scan

-- A place in a file behind the type of an element.
structure ElementEnd where
  -- The file up to the place, the blanks around it, and the file from what ends the element on.
  front : Text
  left : Text
  right : Text
  back : Text
  leads : ∀ c ∈ left, isBlank c = true
  trails : ∀ c ∈ right, isBlank c = true
  ending : back.head? = some ';' ∨ back.head? = some '\x7d'
  seam : Seam front (left ++ right ++ back)
  -- Without its comments the file up to the place ends in the type, and in the blanks that a comment leaves there.
  typed : Text
  between : Text
  opened : withoutComments front = typed ++ between
  spaced : ∀ c ∈ between, isBlank c = true
  stripped : Seam typed (between ++ left ++ right ++ withoutComments back)
  -- The declaration around the place, and the two parts of its body.
  declaration : Declaration
  member : declaration ∈ Declaration.ofText (withoutComments (front ++ (left ++ right ++ back)))
  unviewed : (Fragment.ofDeclaration declaration).isView = false
  lead : Text
  inside : Text
  onward : Text
  trail : Text
  before : typed = lead ++ inside
  behind : withoutComments back = onward ++ trail
  offset : Nat
  place : lead.byteSize = declaration.start + offset
  found : Body.ofText? (Fragment.ofDeclaration declaration).text =
    some ⟨offset, inside ++ (between ++ left ++ right ++ onward)⟩
  ended : EndsElement (bracketsOpen 0 (tokenize inside)) onward
  -- The element, which is the last statement in front of the place.
  earlier : List Text
  statement : Text
  name : Text
  rawType : Text
  alone : statements (inside ++ onward.take 1) = earlier ++ [statement]
  element : BodyLine.read statement = .element name rawType
  whole : Seam statement [';']

-- A file that shows what another one shows, though one of its declarations may have another text.
def ShowsAlike (source other : Text) : Prop :=
  declaredNames other = declaredNames source ∧ ∃ earlier fragment changed later,
    fragments source = earlier ++ fragment :: later ∧ fragments other = earlier ++ changed :: later ∧
      ∀ types file, changed.render types file = fragment.render types file

theorem without_comments_loose (t : Text) (loose : Loose (tokenize t)) : withoutComments t = t := by
  apply without_comments_uncommented
  intro token member
  rcases loose token member with kind | kind <;> simp [kind]

theorem without_comments_ending (y : Text) (ending : y.head? = some ';' ∨ y.head? = some '\x7d') :
    (withoutComments y).head? = y.head? := by
  have plain (c : Char) (rest : Text) (plain : isPlain c = true) : (withoutComments (c :: rest)).head? = some c := by
    have read := without_comments_of_cut c [] rest .punct (.plain c rest plain)
    rw [List.nil_append] at read
    rw [read]
    rfl
  rcases ending with first | first
  · obtain ⟨rest, rfl⟩ := List.head?_eq_some_iff.mp first
    exact plain ';' rest (by decide)
  · obtain ⟨rest, rfl⟩ := List.head?_eq_some_iff.mp first
    exact plain '\x7d' rest (by decide)

namespace ElementEnd

variable (place : ElementEnd)

def source : Text := place.front ++ (place.left ++ place.right ++ place.back)

-- The file with an annotation in the place, given without its first character.
def annotated (body : Text) : Text :=
  place.front ++ (place.left ++ ' ' :: '@' :: (body ++ place.right) ++ place.back)

theorem ends : Ends place.back := by
  intro c first
  exact place.ending.imp (fun semicolon => Option.some.inj (first.symm.trans semicolon))
    fun brace => Option.some.inj (first.symm.trans brace)

theorem inside_filled : place.inside ≠ [] := by
  intro nothing
  have alone := place.alone
  rw [nothing, List.nil_append] at alone
  have none : statements (place.onward.take 1) = [] := by
    rcases place.ended.cases with same | ⟨rest, same, _⟩
    · rw [same]
      exact statements_nil
    · rw [same, List.take_succ_cons, List.take_zero]
      decide +kernel
  rw [none] at alone
  simp at alone

section

variable (bare : Bool) (body : Text) (shape : Annotation bare body)

-- What is put in the file, and what is put in it without its comments.
def written : Insertion := ⟨place.left, bare, body, place.right, place.leads, shape, place.trails⟩
def insertion : Insertion := ⟨place.between ++ place.left, bare, body, place.right,
  List.forall_mem_append.mpr ⟨place.spaced, place.leads⟩, shape, place.trails⟩

theorem stripped_source :
    withoutComments place.source = place.typed ++ ((place.insertion bare body shape).gap ++
      withoutComments place.back) := by
  have gap := place.ends.apart (place.written bare body shape).gap _ (place.written bare body shape).blanks
  have bound : Apart place.front ((place.written bare body shape).gap ++ place.back) := place.seam.apart
  change withoutComments (place.front ++ ((place.written bare body shape).gap ++ place.back)) = _
  rw [bound.without_comments, gap.without_comments,
    without_comments_loose _ (loose_blanks _ (place.written bare body shape).blanks), place.opened]
  simp [Insertion.gap, written, insertion]

variable (fits : bare = true → place.right = [] → place.back.head? ≠ some '\x7d')

include fits

theorem stripped_annotated :
    withoutComments (place.annotated body) = place.typed ++
      ((place.insertion bare body shape).text ++ withoutComments place.back) := by
  have behind := (place.written bare body shape).apart place.back place.ends fits
  have bound := place.seam.apart_of_halts _ _ _ ((place.written bare body shape).halts _ place.back)
  change withoutComments (place.front ++ ((place.written bare body shape).text ++ place.back)) = _
  rw [bound.without_comments, behind.without_comments, without_comments_loose _ (place.written bare body shape).loose,
    place.opened]
  simp [Insertion.text, written, insertion]

end

end ElementEnd

/-- An annotation behind the type of an element leaves the declared names and all that is shown of the file as they are,
as long as no brace stands right behind a word that is its value. -/
theorem annotation_inert (place : ElementEnd) (bare : Bool) (body : Text) (shape : Annotation bare body)
    (fits : bare = true → place.right = [] → place.back.head? ≠ some '\x7d') :
    ShowsAlike place.source (place.annotated body) := by
  have head := without_comments_ending place.back place.ending
  have ends : Ends (withoutComments place.back) := by
    intro c first
    exact place.ends c (head.symm.trans first)
  have filled : withoutComments place.back ≠ [] := by
    intro nothing
    rw [nothing] at head
    rcases place.ending with first | first <;> rw [first] at head <;> contradiction
  have freely : (place.insertion bare body shape).Fits (withoutComments place.back) := by
    rw [Insertion.Fits, head]
    exact fits
  have old := place.stripped_source bare body shape
  have new := place.stripped_annotated bare body shape fits
  have member := place.member
  change place.declaration ∈ Declaration.ofText (withoutComments place.source) at member
  rw [old] at member
  obtain ⟨earlier, later, changed, first, second, kind, name, view, held, seam⟩ :=
    (place.insertion bare body shape).fragment_around _ _ place.stripped ends freely filled place.declaration member
      place.lead place.inside place.onward place.before place.inside_filled place.offset place.place place.found
  constructor
  · rw [declaredNames, declaredNames, old, new]
    exact (place.insertion bare body shape).names_around _ _ place.stripped ends freely
  · refine ⟨(earlier.map Fragment.ofDeclaration).filter (!·.isView), Fragment.ofDeclaration place.declaration,
      Fragment.ofDeclaration changed, (later.map Fragment.ofDeclaration).filter (!·.isView), ?_, ?_, ?_⟩
    · rw [fragments, old, first]
      simp [place.unviewed]
    · rw [fragments, new, second, List.map_append, List.map_cons, shown_moved]
      simp [place.unviewed, view]
    · intro types file
      exact (place.insertion bare body shape).render_around _ _ _ seam ends freely ⟨place.trail, place.behind.symm⟩
        place.ended place.earlier place.statement place.name place.rawType place.alone place.element place.whole
        _ _ kind name (by rw [Fragment.body?, place.found]; rfl) held types file

def shelfFront : Text := "entity Shelf \x7b\n  book : Book /* all */"
def shelfBack : Text := "\x7d\nentity Book \x7b\x7d"
def shelfBlank (apart : Bool) : Text := if apart then " " else ""

-- The end of an element in front of the brace that closes the body, with a blank between them or without.
def shelfEnd (apart : Bool) : ElementEnd where
  front := shelfFront
  left := []
  right := shelfBlank apart
  back := shelfBack
  leads := List.forall_mem_nil _
  trails := List.all_eq_true.mp (by cases apart <;> decide)
  ending := by decide
  seam := by cases apart <;> decide +kernel
  typed := "entity Shelf \x7b\n  book : Book"
  between := " "
  opened := by decide +kernel
  spaced := List.all_eq_true.mp (by decide)
  stripped := by cases apart <;> decide +kernel
  declaration := (Declaration.ofText (withoutComments (shelfFront ++ ([] ++ shelfBlank apart ++ shelfBack)))).head
    (by cases apart <;> decide +kernel)
  member := List.head_mem _
  unviewed := by cases apart <;> decide +kernel
  lead := "entity Shelf \x7b"
  inside := "\n  book : Book"
  onward := []
  trail := shelfBack
  before := by decide +kernel
  behind := by decide +kernel
  offset := 14
  place := by cases apart <;> decide +kernel
  found := by cases apart <;> decide +kernel
  ended := by decide +kernel
  earlier := []
  statement := "  book : Book"
  name := "book"
  rawType := "Book"
  alone := by decide +kernel
  element := by decide +kernel
  whole := by decide +kernel

theorem shelf_title : Annotation true "title: shelf" := by
  have value : Value true "shelf" := .word 's' "helf" (by decide) (by decide) (List.all_eq_true.mp (by decide))
  have whole := Annotation.valued true "title" [] " " "shelf" (by decide) (List.all_eq_true.mp (by decide))
    (List.forall_mem_nil _) (List.all_eq_true.mp (by decide)) value
  exact whole

theorem shelf_annotation_inert :
    (shelfEnd true).annotated "title: shelf" = shelfFront ++ (" @title: shelf ".toList ++ shelfBack) ∧
      ShowsAlike (shelfEnd true).source ((shelfEnd true).annotated "title: shelf") :=
  ⟨by decide, annotation_inert (shelfEnd true) true "title: shelf" shelf_title (by decide)⟩

-- Right in front of the brace the word takes it in, and the entity behind it is no declaration any more.
theorem bare_value_takes_brace : ¬ ∀ (place : ElementEnd) (bare : Bool) (body : Text),
    Annotation bare body → ShowsAlike place.source (place.annotated body) := by
  intro always
  obtain ⟨_, earlier, fragment, changed, later, old, new, _⟩ :=
    always (shelfEnd false) true "title: shelf" shelf_title
  have size : (fragments ((shelfEnd false).annotated "title: shelf")).length =
      (fragments (shelfEnd false).source).length := by
    rw [old, new, List.length_append, List.length_append]
    rfl
  exact absurd size (by decide +kernel)

end SchemaDiagram
