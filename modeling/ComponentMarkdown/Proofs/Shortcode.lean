import ComponentMarkdown.Proofs.Text
import ComponentMarkdown.Shortcode
import Mathlib.Data.List.Chain

namespace ComponentMarkdown

namespace Shortcode

/-- The characters of a name: at least one, and no others than those of names. -/
def IsName (name : List Char) : Prop := name ≠ [] ∧ ∀ c ∈ name, isNameChar c = true

def Piece.isPlain : Piece → Bool
  | plain _ => true
  | emoji _ _ => false

section Known

variable {glyphOf? : String → Option String} {s tail : List Char} {name glyph : String}

theorem known?_of_isName {name : List Char} (valid : IsName name) (tail : List Char) :
    known? glyphOf? (':' :: (name ++ ':' :: tail)) =
      (glyphOf? (String.ofList name)).map fun glyph => (String.ofList name, glyph, tail) := by
  obtain ⟨some, chars⟩ := valid
  have stop : ∀ c ∈ (':' :: tail).head?, isNameChar c = false := by
    rintro c ⟨⟩
    rfl
  rw [known?, Text.takeWhile_append_stop chars stop, Text.dropWhile_append_stop chars stop]
  cases name with
  | nil => exact absurd rfl some
  | cons c more => rfl

theorem known?_eq_some_iff : known? glyphOf? s = some (name, glyph, tail) ↔
    IsName name.toList ∧ glyphOf? name = some glyph ∧ s = (Piece.emoji name glyph).source ++ tail := by
  constructor
  · intro found
    unfold known? at found
    split at found
    · rename_i rest
      split at found
      · rename_i c more behind front back
        obtain ⟨glyph', resolved, same⟩ := Option.map_eq_some_iff.1 found
        simp only [Prod.mk.injEq] at same
        obtain ⟨rfl, rfl, rfl⟩ := same
        have chars : ∀ d ∈ c :: more, isNameChar d = true := by
          intro d member
          rw [← front] at member
          exact List.mem_takeWhile_imp member
        have whole :
            rest.takeWhile isNameChar ++ rest.dropWhile isNameChar = rest := List.takeWhile_append_dropWhile
        rw [front, back] at whole
        refine ⟨⟨?_, ?_⟩, resolved, ?_⟩
        · rw [String.toList_ofList]
          exact List.cons_ne_nil c more
        · rw [String.toList_ofList]
          exact chars
        · rw [Piece.source, String.toList_ofList, List.cons_append, List.append_assoc, List.singleton_append, whole]
      · cases found
    · cases found
  · rintro ⟨valid, resolved, rfl⟩
    rw [Piece.source, List.cons_append, List.append_assoc, List.singleton_append, known?_of_isName valid,
      String.ofList_toList, resolved]
    rfl

/-- A text that begins with a shortcode that is known. -/
theorem known?_of_prefix (valid : IsName name.toList) (resolved : glyphOf? name = some glyph)
    (first : (Piece.emoji name glyph).source <+: s) : ∃ tail, known? glyphOf? s = some (name, glyph, tail) := by
  obtain ⟨tail, rfl⟩ := first
  exact ⟨tail, known?_eq_some_iff.2 ⟨valid, resolved, rfl⟩⟩

end Known

section Split

variable {glyphOf? : String → Option String} {s tail : List Char} {name glyph : String}

theorem splitWith_of_known? (found : known? glyphOf? s = some (name, glyph, tail)) :
    splitWith glyphOf? s = .emoji name glyph :: splitWith glyphOf? tail := by
  cases s with
  | nil => cases found
  | cons c rest =>
    rw [splitWith]
    split
    · rename_i found'
      rw [found] at found'
      cases found'
      rfl
    · rename_i found'
      rw [found] at found'
      cases found'

theorem splitWith_of_unknown {c : Char} {rest : List Char} (unknown : known? glyphOf? (c :: rest) = none) :
    splitWith glyphOf? (c :: rest) = consPlain c (splitWith glyphOf? rest) := by
  rw [splitWith]
  split
  · rename_i found
    rw [unknown] at found
    cases found
  · rfl

/-- A character of plain text goes to the plain text behind it, or is a piece of its own. -/
theorem consPlain_cases (c : Char) (pieces : List Piece) :
    (∃ text rest, pieces = .plain text :: rest ∧ consPlain c pieces = .plain (c :: text) :: rest) ∨
      (∀ piece ∈ pieces.head?, piece.isPlain = false) ∧ consPlain c pieces = .plain [c] :: pieces := by
  cases pieces with
  | nil => exact Or.inr ⟨nofun, rfl⟩
  | cons piece rest =>
    cases piece with
    | plain text => exact Or.inl ⟨text, rest, rfl, rfl⟩
    | emoji name glyph =>
      refine Or.inr ⟨?_, rfl⟩
      rintro piece ⟨⟩
      rfl

/-- What pieces are: an emoji has a name that is known, and plain text is not empty and holds no shortcode that
is known. -/
def Piece.IsRead (glyphOf? : String → Option String) : Piece → Prop
  | emoji name glyph => IsName name.toList ∧ glyphOf? name = some glyph
  | plain text => text ≠ [] ∧ ∀ name glyph, IsName name.toList → glyphOf? name = some glyph →
      ¬(emoji name glyph).source <:+: text

/-- A text in pieces: nothing is lost, and no plain text goes on in the next piece. -/
structure Cuts (glyphOf? : String → Option String) (s : List Char) (pieces : List Piece) : Prop where
  whole : pieces.flatMap Piece.source = s
  read : ∀ piece ∈ pieces, piece.IsRead glyphOf?
  apart : pieces.IsChain fun first second => ¬(first.isPlain = true ∧ second.isPlain = true)

theorem Cuts.emoji {pieces : List Piece} (cut : Cuts glyphOf? tail pieces)
    (found : known? glyphOf? s = some (name, glyph, tail)) : Cuts glyphOf? s (.emoji name glyph :: pieces) := by
  obtain ⟨valid, resolved, rfl⟩ := known?_eq_some_iff.1 found
  refine ⟨?_, List.forall_mem_cons.2 ⟨⟨valid, resolved⟩, cut.read⟩, List.isChain_cons.2 ⟨?_, cut.apart⟩⟩
  · rw [List.flatMap_cons, cut.whole]
  · rintro _ _ ⟨⟨⟩, _⟩

/-- Plain text with a character put in front holds a shortcode that is known only if it begins with it, and then
the rest of the text behind it begins with it as well. -/
theorem Cuts.plain {c : Char} {rest : List Char} {pieces : List Piece} (cut : Cuts glyphOf? rest pieces)
    (unknown : known? glyphOf? (c :: rest) = none) : Cuts glyphOf? (c :: rest) (consPlain c pieces) := by
  rcases consPlain_cases c pieces with ⟨text, more, rfl, merged⟩ | ⟨apart, single⟩
  · obtain ⟨⟨_, inside⟩, later⟩ := List.forall_mem_cons.1 cut.read
    have front : c :: text <+: c :: rest := by
      rw [← cut.whole, List.flatMap_cons, List.prefix_cons_inj]
      exact List.prefix_append text _
    have alone : ∀ name glyph, IsName name.toList → glyphOf? name = some glyph →
        ¬(Piece.emoji name glyph).source <:+: c :: text := by
      intro name glyph valid resolved code
      rcases List.infix_cons_iff.1 code with here | below
      · obtain ⟨tail, found⟩ := known?_of_prefix valid resolved (here.trans front)
        rw [unknown] at found
        cases found
      · exact inside name glyph valid resolved below
    rw [merged]
    refine ⟨?_, List.forall_mem_cons.2 ⟨⟨List.cons_ne_nil c text, alone⟩, later⟩, ?_⟩
    · rw [← cut.whole]
      rfl
    · exact List.isChain_cons.2 (List.isChain_cons.1 cut.apart)
  · have alone : ∀ name glyph, IsName name.toList → glyphOf? name = some glyph →
        ¬(Piece.emoji name glyph).source <:+: [c] := by
      intro name glyph _ _ code
      have long := code.length_le
      simp only [Piece.source, List.length_cons, List.length_append, List.length_nil] at long
      omega
    rw [single]
    refine ⟨?_, List.forall_mem_cons.2 ⟨⟨List.cons_ne_nil c [], alone⟩, cut.read⟩, ?_⟩
    · rw [List.flatMap_cons, cut.whole]
      rfl
    · refine List.isChain_cons.2 ⟨fun piece next both => ?_, cut.apart⟩
      rw [apart piece next] at both
      cases both.2

theorem cuts_splitWith (glyphOf? : String → Option String) (s : List Char) :
    Cuts glyphOf? s (splitWith glyphOf? s) := by
  induction s using splitWith.induct glyphOf? with
  | case1 =>
    rw [splitWith]
    exact ⟨rfl, nofun, .nil⟩
  | case2 c rest name glyph tail found ih =>
    rw [splitWith_of_known? found]
    exact ih.emoji found
  | case3 c rest unknown ih =>
    rw [splitWith_of_unknown unknown]
    exact ih.plain unknown

/-- The pieces of a text make up the text. -/
theorem split_source [Surroundings] (s : List Char) : (split s).flatMap Piece.source = s :=
  (cuts_splitWith Surroundings.glyphOf? s).whole

theorem split_ne_nil [Surroundings] {s : List Char} (nonempty : s ≠ []) : split s ≠ [] := by
  intro empty
  have whole := split_source s
  rw [empty] at whole
  exact nonempty whole.symm

/-- No piece of plain text is empty. -/
theorem plain_ne_nil [Surroundings] (s : List Char) : ∀ text, .plain text ∈ split s → text ≠ [] :=
  fun text member => ((cuts_splitWith Surroundings.glyphOf? s).read (.plain text) member).1

/-- Whatever names are known, no text is lost when a text is split at its shortcodes, and none that is known is left
in plain text. -/
theorem splitWith_complete (glyphOf? : String → Option String) (s : List Char) :
    let pieces := splitWith glyphOf? s
    pieces.flatMap Piece.source = s ∧
      (∀ name glyph, .emoji name glyph ∈ pieces → IsName name.toList ∧ glyphOf? name = some glyph) ∧
      (∀ text, .plain text ∈ pieces → text ≠ [] ∧ ∀ name glyph, IsName name.toList → glyphOf? name = some glyph →
        ¬(Piece.emoji name glyph).source <:+: text) ∧
      pieces.IsChain fun first second => ¬(first.isPlain = true ∧ second.isPlain = true) := by
  have cut := cuts_splitWith glyphOf? s
  exact ⟨cut.whole, fun name glyph member => cut.read (.emoji name glyph) member,
    fun text member => cut.read (.plain text) member, cut.apart⟩

/-- A colon that closes a name that is not known opens the next one, but no colon is used by two emoji. -/
example : splitWith (List.lookup · [("smile", "😄"), ("x", "❌")]) "10:20:smile:x:".toList =
    [.plain "10:20".toList, .emoji "smile" "😄", .plain "x:".toList] := by
  decide +kernel

end Split

end Shortcode

end ComponentMarkdown
