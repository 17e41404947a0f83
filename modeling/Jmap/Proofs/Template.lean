import Jmap.Template
import Mathlib.Data.List.Chain
import Mathlib.Data.List.Forall2

/-! Templates piece by piece. A template is divided in one way only, whatever the values are, and
the search for braces expands each piece on its own, so that what is put in for a name is not
read again. -/
namespace Jmap.Template

inductive Piece where
  /-- Without an opening brace. -/
  | literal (text : List Char)
  /-- Without a closing brace. -/
  | expression (name : List Char)
  /-- What follows an opening brace that is not closed. -/
  | unterminated (text : List Char)
  deriving DecidableEq

def Piece.print : Piece → List Char
  | .literal text => text
  | .expression name => '{' :: name ++ ['}']
  | .unterminated text => '{' :: text

def literal (text : List Char) : List Piece := if text.isEmpty then [] else [.literal text]

/-- The pieces of a text, given what has been read of the first: of an expression
if `inside`, else of a literal. -/
def scan (inside : Bool) (read : List Char) : List Char → List Piece
  | [] => if inside then [.unterminated read] else literal read
  | c :: rest =>
    if inside then
      if c = '}' then .expression read :: scan false [] rest else scan true (read ++ [c]) rest
    else if c = '{' then literal read ++ scan true [] rest
    else scan false (read ++ [c]) rest

def pieces (template : String) : List Piece := scan false [] template.toList

def Piece.expand (values : List (String × String)) : Piece → List Char
  | .expression name => fill values name (Piece.expression name).print
  | piece => piece.print

/-- What a piece holds reaches as far as it can. -/
def Piece.IsProper : Piece → Prop
  | .literal text => text ≠ [] ∧ '{' ∉ text
  | .expression name => '}' ∉ name
  | .unterminated text => '}' ∉ text

/-- Two literals would be one, and nothing follows what is not terminated. -/
def Piece.MayPrecede : Piece → Piece → Prop
  | .literal _,.literal _ => False
  | .unterminated _,_ => False
  | _,_ => True

structure Divides (pieces : List Piece) (text : List Char) : Prop where
  proper : ∀ piece ∈ pieces, piece.IsProper
  ordered : pieces.IsChain Piece.MayPrecede
  spells : pieces.flatMap Piece.print = text

/-- What a piece is replaced by. Of several values under a name the first counts. -/
inductive Becomes (values : List (String × String)) : Piece → List Char → Prop where
  | literal (text : List Char) : Becomes values (.literal text) text
  | value {before after : List (String × String)} {name : List Char} {value : String}
    (split : values = before ++ (String.ofList name,value) :: after)
    (first : ∀ entry ∈ before, entry.1 ≠ String.ofList name) :
    Becomes values (.expression name) (Text.percentEncode value)
  | unknown {name : List Char} (absent : ∀ entry ∈ values, entry.1 ≠ String.ofList name) :
    Becomes values (.expression name) ('{' :: name ++ ['}'])
  | unterminated (text : List Char) : Becomes values (.unterminated text) ('{' :: text)

section Scan
variable {c : Char} {text name rest read : List Char}

theorem scan_plain (plain : c ≠ '{') : scan false read (c :: rest) = scan false (read ++ [c]) rest := by
  rw [scan,if_neg Bool.false_ne_true,if_neg plain]

theorem scan_brace : scan false read ('{' :: rest) = literal read ++ scan true [] rest := rfl

theorem scan_inside (within : c ≠ '}') : scan true read (c :: rest) = scan true (read ++ [c]) rest := by
  rw [scan,if_pos rfl,if_neg within]

theorem scan_literal (clean : '{' ∉ text) : scan false read (text ++ rest) = scan false (read ++ text) rest := by
  induction text generalizing read with
  | nil => rw [List.nil_append,List.append_nil]
  | cons c text ih =>
    rw [List.mem_cons,not_or] at clean
    rw [List.cons_append,scan_plain (Ne.symm clean.1),ih clean.2,List.append_assoc,List.singleton_append]

theorem scan_expression (closed : '}' ∉ name) :
    scan true read (name ++ '}' :: rest) = .expression (read ++ name) :: scan false [] rest := by
  induction name generalizing read with
  | nil =>
    rw [List.append_nil]
    rfl
  | cons c name ih =>
    rw [List.mem_cons,not_or] at closed
    rw [List.cons_append,scan_inside (Ne.symm closed.1),ih closed.2,List.append_assoc,List.singleton_append]

theorem scan_unterminated (unclosed : '}' ∉ text) : scan true read text = [.unterminated (read ++ text)] := by
  induction text generalizing read with
  | nil =>
    rw [List.append_nil]
    rfl
  | cons c text ih =>
    rw [List.mem_cons,not_or] at unclosed
    rw [scan_inside (Ne.symm unclosed.1),ih unclosed.2,List.append_assoc,List.singleton_append]

/-- A literal has been read where a brace opens or the text ends. -/
theorem scan_read (ends : ∀ c ∈ rest.head?, c = '{') : scan false read rest = literal read ++ scan false [] rest := by
  cases rest with
  | nil => exact (List.append_nil _).symm
  | cons c rest =>
    cases ends c rfl
    rfl

end Scan

namespace Divides
variable {pieces : List Piece} {text name rest : List Char}

theorem nil : Divides [] [] := ⟨by simp,.nil,rfl⟩

theorem unterminated (unclosed : '}' ∉ text) : Divides [.unterminated text] ('{' :: text) :=
  ⟨by simpa [Piece.IsProper] using unclosed,.singleton _,by simp [Piece.print]⟩

theorem expression (closed : '}' ∉ name) (later : Divides pieces rest) :
    Divides (.expression name :: pieces) ('{' :: (name ++ '}' :: rest)) where
  proper := List.forall_mem_cons.mpr ⟨closed,later.proper⟩
  ordered := List.isChain_cons.mpr ⟨fun _ _ => trivial,later.ordered⟩
  spells := by simp [Piece.print,later.spells]

/-- No literal starts with a brace. -/
theorem front_ne_literal (divided : Divides pieces text) (ends : ∀ c ∈ text.head?, c = '{') {front : List Char} :
    .literal front ∉ pieces.head? := by
  intro first
  cases pieces with
  | nil => contradiction
  | cons piece pieces =>
    cases first
    obtain ⟨nonempty,clean⟩ := divided.proper _ List.mem_cons_self
    cases front with
    | nil => contradiction
    | cons c front =>
      refine clean (List.mem_cons.mpr (.inl (ends c ?_).symm))
      rw [← divided.spells]
      rfl

theorem literal (clean : '{' ∉ text) (later : Divides pieces rest) (ends : ∀ c ∈ rest.head?, c = '{') :
    Divides (Template.literal text ++ pieces) (text ++ rest) := by
  cases text with
  | nil => exact later
  | cons c text =>
    refine ⟨List.forall_mem_cons.mpr ⟨⟨List.cons_ne_nil _ _,clean⟩,later.proper⟩,?_,?_⟩
    · refine List.isChain_cons.mpr ⟨fun next first => ?_,later.ordered⟩
      cases next with
      | literal front => exact absurd first (later.front_ne_literal ends)
      | expression | unterminated => trivial
    · exact congrArg ((c :: text) ++ ·) later.spells

theorem tail {piece : Piece} (divided : Divides (piece :: pieces) text) :
    Divides pieces (pieces.flatMap Piece.print) where
  proper := (List.forall_mem_cons.mp divided.proper).2
  ordered := divided.ordered.tail
  spells := rfl

/-- There is one division only. -/
theorem scan_eq (divided : Divides pieces text) : scan false [] text = pieces := by
  induction pieces generalizing text with
  | nil =>
    cases divided.spells
    rfl
  | cons piece pieces ih =>
    have later := ih divided.tail
    have follows := (List.isChain_cons.mp divided.ordered).1
    have proper := divided.proper piece List.mem_cons_self
    rw [← divided.spells,List.flatMap_cons]
    cases piece with
    | literal front =>
      have ends : ∀ c ∈ (pieces.flatMap Piece.print).head?, c = '{' := by
        intro c first
        cases pieces with
        | nil => contradiction
        | cons next pieces =>
          have allowed := follows next rfl
          cases next with
          | literal => contradiction
          | expression | unterminated => exact (Option.mem_some_iff.mp first).symm
      rw [Piece.print,scan_literal proper.2,List.nil_append,scan_read ends,later,Template.literal,
        if_neg (by simpa using proper.1),List.singleton_append]
    | expression name =>
      change scan false [] ('{' :: (name ++ ['}']) ++ _) = _
      rw [List.cons_append,List.append_assoc,scan_brace,List.singleton_append,scan_expression proper,later]
      rfl
    | unterminated inside =>
      cases pieces with
      | nil =>
        change scan false [] ('{' :: (inside ++ [])) = _
        rw [List.append_nil,scan_brace,scan_unterminated proper]
        rfl
      | cons next pieces => exact (follows next rfl).elim

end Divides

/-- By induction on the text, inside an expression and outside at the same time. -/
theorem divides_scan (text : List Char) :
    (∀ read, '{' ∉ read → Divides (scan false read text) (read ++ text)) ∧
      ∀ read, '}' ∉ read → Divides (scan true read text) ('{' :: (read ++ text)) := by
  induction text with
  | nil =>
    constructor
    · intro read clean
      have divided := Divides.nil.literal clean (by simp)
      rwa [List.append_nil] at divided
    · intro read unclosed
      rw [List.append_nil]
      exact .unterminated unclosed
  | cons c text ih =>
    obtain ⟨outside,inside⟩ := ih
    constructor
    · intro read clean
      by_cases opens : c = '{'
      · subst opens
        exact (inside [] (by simp)).literal clean (by simp)
      · have longer := outside (read ++ [c]) (by simp [clean,Ne.symm opens])
        rw [List.append_assoc] at longer
        rwa [scan_plain opens]
    · intro read unclosed
      by_cases closes : c = '}'
      · subst closes
        exact (outside [] (by simp)).expression unclosed
      · have longer := inside (read ++ [c]) (by simp [unclosed,Ne.symm closes])
        rw [List.append_assoc] at longer
        rwa [scan_inside closes]

theorem divides_pieces (template : String) : Divides (pieces template) template.toList :=
  (divides_scan template.toList).1 [] (by simp)

variable {values : List (String × String)}

theorem becomes_iff {piece : Piece} {part : List Char} : Becomes values piece part ↔ piece.expand values = part := by
  constructor
  · intro becomes
    cases becomes with
    | literal | unterminated => rfl
    | @value before after name value split first =>
      have found : values.lookup (String.ofList name) = some value :=
        List.lookup_eq_some_iff.mpr ⟨before,after,split,fun entry member => bne_iff_ne.mpr (first entry member).symm⟩
      rw [Piece.expand,fill,found]
    | @unknown name absent =>
      have missing : values.lookup (String.ofList name) = none :=
        List.lookup_eq_none_iff.mpr fun entry member => bne_iff_ne.mpr (absent entry member).symm
      rw [Piece.expand,fill,missing]
      rfl
  · rintro rfl
    cases piece with
    | literal text => exact .literal text
    | unterminated text => exact .unterminated text
    | expression name =>
      cases found : values.lookup (String.ofList name) with
      | some value =>
        obtain ⟨before,after,split,first⟩ := List.lookup_eq_some_iff.mp found
        rw [Piece.expand,fill,found]
        exact .value split fun entry member => (bne_iff_ne.mp (first entry member)).symm
      | none =>
        have absent := List.lookup_eq_none_iff.mp found
        rw [Piece.expand,fill,found]
        exact .unknown fun entry member => (bne_iff_ne.mp (absent entry member)).symm

theorem expand_literal (text : List Char) : (literal text).flatMap (Piece.expand values) = text := by
  cases text with
  | nil => rfl
  | cons c text => exact List.append_nil _

section Search
variable {text name inside out rest : List Char}

theorem idxOf?_of_first {c : Char} {before after : List Char} (first : c ∉ before) :
    (before ++ c :: after).idxOf? c = some before.length := by
  rw [List.idxOf?_eq_some_iff]
  refine ⟨by simp,by simp,fun place early same => first ?_⟩
  rw [List.getElem_append_left early] at same
  exact same ▸ List.getElem_mem early

theorem expandRest_plain (clean : '{' ∉ rest) : expandRest values out rest = out ++ rest := by
  have none := List.idxOf?_eq_none_iff.mpr clean
  rw [expandRest]
  split
  next => rfl
  next found => cases none.symm.trans found

theorem expandRest_of_brace {start : Nat} (opens : rest.idxOf? '{' = some start) :
    expandRest values out rest =
      match (rest.drop start).idxOf? '}' with
      | none => out ++ rest.extract 0 start ++ rest.drop start
      | some length =>
        let name := rest.extract (start + 1) (start + length)
        let braced := rest.extract start (start + length + 1)
        expandRest values (out ++ rest.extract 0 start ++ fill values name braced) (rest.drop (start + length + 1)) := by
  rw [expandRest]
  split
  next found => cases opens.symm.trans found
  next found =>
    cases opens.symm.trans found
    rfl

theorem expandRest_unterminated (clean : '{' ∉ text) (unclosed : '}' ∉ inside) :
    expandRest values out (text ++ '{' :: inside) = out ++ (text ++ '{' :: inside) := by
  have none : ('{' :: inside).idxOf? '}' = none :=
    List.idxOf?_eq_none_iff.mpr (List.not_mem_cons_of_ne_of_not_mem (by decide) unclosed)
  have before : (text ++ '{' :: inside).extract 0 text.length = text := by simp
  simp only [expandRest_of_brace (idxOf?_of_first clean),List.drop_left,none,before,List.append_assoc]

/-- The slices that are cut out are the text before the braces, the name, and the name in its braces. -/
theorem expandRest_expression (clean : '{' ∉ text) (closed : '}' ∉ name) :
    expandRest values out (text ++ '{' :: (name ++ '}' :: rest)) =
      expandRest values (out ++ (text ++ (Piece.expression name).expand values)) rest := by
  have closes : ('{' :: (name ++ '}' :: rest)).idxOf? '}' = some (name.length + 1) :=
    idxOf?_of_first (List.not_mem_cons_of_ne_of_not_mem (by decide) closed)
  have before : (text ++ '{' :: (name ++ '}' :: rest)).extract 0 text.length = text := by simp
  have named : (text ++ '{' :: (name ++ '}' :: rest)).extract (text.length + 1) (text.length + (name.length + 1)) = name := by
    simp [List.drop_length_add_append,Nat.add_sub_add_left]
  have braced : (text ++ '{' :: (name ++ '}' :: rest)).extract text.length (text.length + (name.length + 1) + 1) =
      (Piece.expression name).print := by
    simp [Piece.print,Nat.add_assoc,List.take_length_add_append]
  have later : (text ++ '{' :: (name ++ '}' :: rest)).drop (text.length + (name.length + 1) + 1) = rest := by
    simp [Nat.add_assoc,List.drop_length_add_append]
  simp only [expandRest_of_brace (idxOf?_of_first clean),List.drop_left,closes,before,named,braced,later,List.append_assoc]
  rfl

theorem expandRest_eq (out rest : List Char) :
    expandRest values out rest = out ++ (scan false [] rest).flatMap (Piece.expand values) := by
  -- By the length of the rest: the search goes on behind each name, where less is left.
  induction size : rest.length using Nat.strongRecOn generalizing out rest with
  | ind length ih =>
    subst size
    by_cases opens : '{' ∈ rest
    · obtain ⟨text,inside,rfl,clean⟩ := List.eq_append_cons_of_mem opens
      rw [scan_literal clean,List.nil_append,scan_brace,List.flatMap_append,expand_literal]
      by_cases closes : '}' ∈ inside
      · obtain ⟨name,later,rfl,closed⟩ := List.eq_append_cons_of_mem closes
        have less : later.length < (text ++ '{' :: (name ++ '}' :: later)).length := by
          simp only [List.length_append,List.length_cons]
          omega
        rw [expandRest_expression clean closed,ih _ less _ _ rfl,scan_expression closed,List.nil_append,
          List.flatMap_cons,List.append_assoc,List.append_assoc]
      · rw [expandRest_unterminated clean closes,scan_unterminated closes,List.nil_append,List.flatMap_singleton]
        rfl
    · have divided : scan false [] (rest ++ []) = literal rest := scan_literal opens
      rw [List.append_nil] at divided
      rw [expandRest_plain opens,divided,expand_literal]

theorem expand_eq (values : List (String × String)) (template : String) :
    expand values template = String.ofList ((pieces template).flatMap (Piece.expand values)) := by
  rw [expand,expandRest_eq,List.nil_append,pieces]

end Search

theorem exists_parts (values : List (String × String)) (template : String) :
    ∃ parts, List.Forall₂ (Becomes values) (pieces template) parts ∧
      expand values template = String.ofList parts.flatten := by
  refine ⟨(pieces template).map (Piece.expand values),?_,by rw [expand_eq,List.flatMap_def]⟩
  rw [List.forall₂_map_right_iff]
  exact List.forall₂_same.mpr fun piece _ => becomes_iff.mpr rfl

theorem expand_scan_read (read rest : List Char) :
    (scan false read rest).flatMap (Piece.expand values) = read ++ (scan false [] rest).flatMap (Piece.expand values) := by
  induction rest generalizing read with
  | nil => simp [scan,expand_literal]
  | cons c rest ih =>
    by_cases opens : c = '{'
    · subst opens
      simp [scan_brace,expand_literal]
    · rw [scan_plain opens,scan_plain opens,ih,ih ([] ++ [c]),List.append_assoc,List.nil_append]

theorem expand_scan_print {piece : Piece} (proper : piece.IsProper) (terminated : ∀ text, .unterminated text ≠ piece)
    (rest : List Char) :
    (scan false [] (piece.print ++ rest)).flatMap (Piece.expand values) =
      piece.expand values ++ (scan false [] rest).flatMap (Piece.expand values) := by
  cases piece with
  | literal text => rw [Piece.print,scan_literal proper.2,expand_scan_read]; rfl
  | expression name =>
    rw [Piece.print,List.cons_append,List.cons_append,List.append_assoc,List.singleton_append,scan_brace,
      scan_expression proper]
    rfl
  | unterminated text => exact absurd rfl (terminated text)

/-- Behind terminated pieces a text is expanded as it is alone; only a literal can go on from the
one into the other. -/
theorem expand_scan_append {front : List Piece} (proper : ∀ piece ∈ front, piece.IsProper)
    (terminated : ∀ text, .unterminated text ∉ front) (rest : List Char) :
    (scan false [] (front.flatMap Piece.print ++ rest)).flatMap (Piece.expand values) =
      front.flatMap (Piece.expand values) ++ (scan false [] rest).flatMap (Piece.expand values) := by
  induction front with
  | nil => rfl
  | cons piece front ih =>
    rw [List.forall_mem_cons] at proper
    have first : ∀ text, .unterminated text ≠ piece := fun text same => terminated text (List.mem_cons.mpr (.inl same))
    have later := ih proper.2 fun text member => terminated text (List.mem_cons_of_mem _ member)
    rw [List.flatMap_cons,List.append_assoc,expand_scan_print proper.1 first,later,List.flatMap_cons,List.append_assoc]

theorem expand_append {template : String} (terminated : ∀ text, .unterminated text ∉ pieces template) (rest : String) :
    expand values (template ++ rest) = expand values template ++ expand values rest := by
  have divided := divides_pieces template
  rw [expand_eq,expand_eq,expand_eq,pieces,String.toList_append,← divided.spells,expand_scan_append divided.proper terminated,
    String.ofList_append]
  rfl

theorem pieces_expression {name : List Char} (closed : '}' ∉ name) :
    pieces (String.ofList (Piece.expression name).print) = [.expression name] := by
  rw [pieces,String.toList_ofList]
  exact (Divides.nil.expression closed).scan_eq

theorem expand_expression {name part : List Char} (closed : '}' ∉ name) (becomes : Becomes values (.expression name) part) :
    expand values (String.ofList (Piece.expression name).print) = String.ofList part := by
  rw [expand_eq,pieces_expression closed,List.flatMap_singleton,becomes_iff.mp becomes]

/-- A template has one division, which the values have no part in, and each of its pieces is expanded on
its own. Where the last is terminated, the text behind it is expanded as if it stood alone, and so
is the text behind what has been put in for a name. -/
theorem expand_by_pieces (template : String) :
    (Divides (pieces template) template.toList ∧ ∀ other, Divides other template.toList → other = pieces template) ∧
    (∀ values, ∃ parts, List.Forall₂ (Becomes values) (pieces template) parts ∧
      expand values template = String.ofList parts.flatten) ∧
    ((∀ text, .unterminated text ∉ pieces template) → ∀ values,
      (∀ rest, expand values (template ++ rest) = expand values template ++ expand values rest) ∧
      ∀ name part rest, '}' ∉ name → Becomes values (.expression name) part →
        expand values (template ++ (String.ofList ('{' :: name ++ ['}']) ++ rest)) =
          expand values template ++ (String.ofList part ++ expand values rest)) := by
  refine ⟨⟨divides_pieces template,fun other divided => divided.scan_eq.symm⟩,
    fun values => exists_parts values template,?_⟩
  intro terminated values
  refine ⟨expand_append terminated,fun name part rest closed becomes => ?_⟩
  have alone : ∀ text, .unterminated text ∉ pieces (String.ofList (Piece.expression name).print) := by
    simp [pieces_expression closed]
  change expand values (template ++ (String.ofList (Piece.expression name).print ++ rest)) = _
  rw [expand_append terminated,expand_append alone,expand_expression closed becomes]

theorem expand_by_pieces_with_braces :
    let values := [("a","\x7bb\x7d"),("b","2"),("a","3")]
    let template := "/\x7d\x7b\x7d\x7bé\x7b\x7d"
    Divides [.literal ['/','}'],.expression [],.expression ['é','{']] template.toList ∧
      pieces template = [.literal ['/','}'],.expression [],.expression ['é','{']] ∧
      expand values (template ++ "\x7bb\x7d\x7bb") = template ++ "2\x7bb" ∧
      expand values (template ++ ("\x7ba\x7d" ++ "b\x7d")) = template ++ "%7Bb%7Db\x7d" := by
  intro values template
  have divided : Divides [.literal ['/','}'],.expression [],.expression ['é','{']] template.toList :=
    ⟨by simp [Piece.IsProper],by simp [Piece.MayPrecede],by decide⟩
  obtain ⟨⟨_,only⟩,_,behind⟩ := expand_by_pieces template
  have same := only _ divided
  obtain ⟨concatenated,notAgain⟩ := behind (by simp [← same]) values
  have split : values = [] ++ (String.ofList ['a'],"\x7bb\x7d") :: [("b","2"),("a","3")] := rfl
  have first : Becomes values (.expression ['a']) (Text.percentEncode "\x7bb\x7d") := .value split (by simp)
  refine ⟨divided,same.symm,?_,?_⟩
  · rw [concatenated]
    decide +kernel
  · have put := notAgain ['a'] _ "b\x7d" (by decide) first
    exact put.trans (by decide +kernel)

end Jmap.Template
