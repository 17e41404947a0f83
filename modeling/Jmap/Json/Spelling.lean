import Jmap.Json.Raw

/-! Scanning gives back what was printed: literals, numbers, gaps, and the tree of
every whole JSON text. -/
namespace Jmap.Json

theorem HexDigit.ofChar?_char (digit : HexDigit) : HexDigit.ofChar? digit.char = some digit := by
  simp [HexDigit.ofChar?,digit.isHex]

theorem isPlain_ne {c : Char} (allowed : isPlain c) : c ≠ '"' ∧ c ≠ '\\' := by
  simp only [isPlain,Bool.and_eq_true,bne_iff_ne] at allowed
  exact ⟨allowed.1.2,allowed.2⟩

theorem Literal.scan_piece (piece : Piece) (rest : List Char) :
    Literal.scan (piece.print ++ rest) =
      (Literal.scan rest).map fun (pieces,rest) => (piece :: pieces,rest) := by
  cases piece with
  | plain c allowed =>
    have different := isPlain_ne allowed
    simp only [Piece.print,List.cons_append,List.nil_append]
    rw [Literal.scan.eq_def]
    split
    · contradiction
    · simp_all
    · simp_all
    · simp_all
    · rename_i same
      injection same with head tail
      subst head tail
      simp [allowed]
      cases Literal.scan rest <;> rfl
  | escape short =>
    cases short <;> simp [Piece.print,Escape.letter,Literal.scan,Escape.ofLetter?] <;>
      cases Literal.scan rest <;> rfl
  | unicode a b c d =>
    simp [Piece.print,Literal.scan,HexDigit.ofChar?_char]
    cases Literal.scan rest <;> rfl

theorem Literal.scan_print (literal : Literal) (rest : List Char) :
    Literal.scan (literal.flatMap Piece.print ++ '"' :: rest) = some (literal,rest) := by
  induction literal with
  | nil => simp [Literal.scan]
  | cons piece pieces ih => simp [List.append_assoc,scan_piece,ih]

theorem Literal.print_append (literal : Literal) (rest : List Char) :
    literal.print ++ rest = '"' :: (literal.flatMap Piece.print ++ '"' :: rest) := by
  simp [Literal.print]

/-- The character at the front, if there is one, does not continue what stands before it. -/
def Stops (continues : Char → Bool) (rest : List Char) : Prop := ∀ c ∈ rest.head?, continues c = false

theorem Stops.cons {continues : Char → Bool} {c : Char} {rest : List Char} (stops : continues c = false) :
    Stops continues (c :: rest) := by
  intro d member
  simp only [List.head?_cons,Option.mem_some_iff] at member
  exact member ▸ stops

theorem Stops.mono {continues fewer : Char → Bool} {rest : List Char} (stops : Stops continues rest)
    (implies : ∀ c, continues c = false → fewer c = false) : Stops fewer rest :=
  fun c member => implies c (stops c member)

def isBlank (c : Char) : Bool := (Blank.ofChar? c).isSome

theorem Blank.ofChar?_char (blank : Blank) : Blank.ofChar? blank.char = some blank := by
  cases blank <;> rfl

theorem Gap.scan_print (gap : Gap) (rest : List Char) (stops : Stops isBlank rest) :
    Gap.scan (gap.print ++ rest) = (gap,rest) := by
  induction gap with
  | nil =>
    cases rest with
    | nil => rfl
    | cons c rest =>
      have none := stops c (by simp)
      simp only [isBlank,Option.isSome_eq_false_iff,Option.isNone_iff_eq_none] at none
      simp [Gap.print,Gap.scan,none]
  | cons blank gap ih =>
    have front : Gap.print (blank :: gap) = blank.char :: Gap.print gap := rfl
    simp [front,Gap.scan,Blank.ofChar?_char,ih]

def isDigit (c : Char) : Bool := (Digit.ofChar? c).isSome

theorem Digit.ofChar?_char : ∀ digit : Digit, Digit.ofChar? digit.char = some digit := by decide

theorem Digits.scan_print (digits : List Digit) {rest : List Char} (stops : Stops isDigit rest) :
    Digits.scan (Digits.print digits ++ rest) = (digits,rest) := by
  induction digits with
  | nil =>
    cases rest with
    | nil => rfl
    | cons c rest =>
      have none := stops c (by simp)
      simp only [isDigit,Option.isSome_eq_false_iff,Option.isNone_iff_eq_none] at none
      simp [Digits.print,Digits.scan,none]
  | cons digit digits ih =>
    have front : Digits.print (digit :: digits) = digit.char :: Digits.print digits := rfl
    simp [front,Digits.scan,Digit.ofChar?_char,ih]

namespace NumberLiteral

/-- What can stand inside a number behind its sign. -/
def continuesNumber (c : Char) : Bool := isDigit c || c == '.' || c == 'e' || c == 'E'

theorem isDigit_of_continuesNumber {c : Char} (outside : continuesNumber c = false) : isDigit c = false := by
  simp only [continuesNumber,Bool.or_eq_false_iff] at outside
  exact outside.1.1.1

theorem digit_ne_sign : ∀ digit : Digit, digit.char ≠ '-' ∧ digit.char ≠ '+' := by decide

theorem scanSign_print (sign : Sign) (digits : SomeDigits) (rest : List Char) :
    scanSign (sign.print ++ (Digits.print digits.toList ++ rest)) =
      (sign,Digits.print digits.toList ++ rest) := by
  cases sign with
  | plus => rfl
  | minus => rfl
  | unsigned =>
    have different := digit_ne_sign digits.first
    have front : Digits.print digits.toList ++ rest =
      digits.first.char :: (Digits.print digits.rest ++ rest) := rfl
    simp only [Sign.print,List.nil_append,front]
    unfold scanSign
    split
    · simp_all
    · simp_all
    · rfl

theorem scanExponent_print (exponent : Option Exponent) {rest : List Char}
    (stops : Stops continuesNumber rest) :
    scanExponent (printExponent exponent ++ rest) = some (exponent,rest) := by
  cases exponent with
  | none =>
    simp only [printExponent,List.nil_append]
    unfold scanExponent
    split
    · simpa [continuesNumber] using stops 'e' (by simp)
    · simpa [continuesNumber] using stops 'E' (by simp)
    · rfl
  | some exponent =>
    obtain ⟨capital,sign,digits⟩ := exponent
    have scanned := Digits.scan_print digits.toList (stops.mono fun _ => isDigit_of_continuesNumber)
    have signed := scanSign_print sign digits rest
    have nonempty : SomeDigits.ofList? digits.toList = some digits := rfl
    cases capital <;>
      simp [printExponent,Exponent.print,scanExponent,scanExponentDigits,signed,scanned,nonempty]

theorem printExponent_stops (exponent : Option Exponent) {rest : List Char}
    (stops : Stops continuesNumber rest) :
    Stops (fun c => isDigit c || c == '.') (printExponent exponent ++ rest) := by
  cases exponent with
  | none =>
    refine stops.mono fun c outside => ?_
    simp only [continuesNumber,Bool.or_eq_false_iff] at outside ⊢
    exact outside.1.1
  | some exponent =>
    obtain ⟨capital,sign,digits⟩ := exponent
    cases capital <;> exact Stops.cons rfl

theorem scanFraction_print (fraction : Option SomeDigits) {rest : List Char}
    (stops : Stops (fun c => isDigit c || c == '.') rest) :
    scanFraction (printFraction fraction ++ rest) = some (fraction,rest) := by
  cases fraction with
  | none =>
    simp only [printFraction,List.nil_append]
    unfold scanFraction
    split
    · simpa using stops '.' (by simp)
    · rfl
  | some digits =>
    have scanned := Digits.scan_print digits.toList (stops.mono fun c outside => by
      simp only [Bool.or_eq_false_iff] at outside
      exact outside.1)
    have nonempty : SomeDigits.ofList? digits.toList = some digits := rfl
    simp [printFraction,scanFraction,scanned,nonempty]

theorem printFraction_stops (fraction : Option SomeDigits) {rest : List Char}
    (stops : Stops (fun c => isDigit c || c == '.') rest) : Stops isDigit (printFraction fraction ++ rest) := by
  cases fraction with
  | none =>
    refine stops.mono fun c outside => ?_
    simp only [Bool.or_eq_false_iff] at outside
    exact outside.1
  | some digits => exact Stops.cons (by decide)

theorem scanWhole_print (whole : Whole) {rest : List Char} (stops : Stops isDigit rest) :
    scanWhole (Digits.print whole.digits.toList ++ rest) = some (whole,rest) := by
  have scanned := Digits.scan_print whole.digits.toList stops
  have nonempty : SomeDigits.ofList? whole.digits.toList = some whole.digits := rfl
  simp only [scanWhole,scanned,nonempty,Option.bind_eq_bind,Option.bind_some]
  exact dif_pos whole.noLeadingZero

theorem scanUnsigned_print (literal : NumberLiteral) {rest : List Char}
    (stops : Stops continuesNumber rest) :
    scanUnsigned literal.negative (literal.printUnsigned ++ rest) = some (literal,rest) := by
  have exponentStops := printExponent_stops literal.exponent stops
  have fractionStops := printFraction_stops literal.fraction exponentStops
  simp [scanUnsigned,printUnsigned,List.append_assoc,scanWhole_print literal.whole fractionStops,
    scanFraction_print literal.fraction exponentStops,scanExponent_print literal.exponent stops]

theorem scan_print (literal : NumberLiteral) {rest : List Char} (stops : Stops continuesNumber rest) :
    scan (literal.print ++ rest) = some (literal,rest) := by
  have scanned := scanUnsigned_print literal stops
  cases sign : literal.negative with
  | true => simpa [print,sign,scan] using scanned
  | false =>
    rw [sign] at scanned
    have different := digit_ne_sign literal.whole.digits.first
    simp only [print,sign,Bool.false_eq_true,if_false]
    unfold scan
    split
    next tail same =>
      have front : literal.printUnsigned ++ rest = literal.whole.digits.first.char ::
        (Digits.print literal.whole.digits.rest ++
          (printFraction literal.fraction ++ printExponent literal.exponent) ++ rest) := rfl
      rw [front] at same
      exact absurd (List.cons.inj same).1 different.1
    next => exact scanned

end NumberLiteral

open NumberLiteral (continuesNumber)

def Items.before : Items → Gap
  | .last before _ _ => before
  | .more before _ _ _ => before
  | .cut before _ => before

/-- What follows the first gap. -/
def Items.body : Items → List Char
  | .last _ item after => item.print ++ (after.print ++ [']'])
  | .more _ item after rest => item.print ++ (after.print ++ ',' :: rest.print)
  | .cut _ item => item.print

theorem Items.print_eq (items : Items) : items.print = items.before.print ++ items.body := by
  cases items <;> simp [Items.print,Items.before,Items.body]

def Members.before : Members → Gap
  | .last label _ _ => label.before
  | .more label _ _ _ => label.before
  | .cut label _ => label.before
  | .stop => []

def Label.body (label : Label) : List Char :=
  label.key.print ++ (label.beforeColon.print ++ ':' :: label.afterColon.print)

/-- What follows the first gap. -/
def Members.body : Members → List Char
  | .last label value after => label.body ++ (value.print ++ (after.print ++ ['}']))
  | .more label value after rest => label.body ++ (value.print ++ (after.print ++ ',' :: rest.print))
  | .cut label value => label.body ++ value.print
  | .stop => []

theorem Members.print_eq (members : Members) : members.print = members.before.print ++ members.body := by
  cases members <;> simp [Members.print,Members.before,Members.body,Label.print,Label.body,Gap.print]

/-- What can follow the value before a comma or a closing bracket. -/
theorem gap_stops (gap : Gap) {c : Char} {rest : List Char} (stops : continuesNumber c = false) :
    Stops continuesNumber (gap.print ++ c :: rest) := by
  cases gap with
  | nil => exact Stops.cons stops
  | cons blank gap => cases blank <;> exact Stops.cons (by decide)

def startsNode (c : Char) : Bool := !isBlank c && c != ']' && c != '}' && c != ',' && c != ':'

theorem digit_startsNode : ∀ digit : Digit, startsNode digit.char = true := by decide

theorem Node.print_front (node : Node) (closed : node.isClosed) :
    ∃ c rest, node.print = c :: rest ∧ startsNode c = true := by
  cases node with
  | null => exact ⟨_,_,rfl,by decide⟩
  | boolean value => cases value <;> exact ⟨_,_,rfl,by decide⟩
  | number literal =>
    cases sign : literal.negative with
    | true => exact ⟨'-',literal.printUnsigned,by simp [Node.print,NumberLiteral.print,sign],by decide⟩
    | false =>
      exact ⟨literal.whole.digits.first.char,_,by
        simp only [Node.print,NumberLiteral.print,sign,Bool.false_eq_true,if_false]
        rfl,digit_startsNode _⟩
  | string literal => exact ⟨_,_,rfl,by decide⟩
  | emptyArray inside => exact ⟨_,_,rfl,by decide⟩
  | array items => exact ⟨_,_,rfl,by decide⟩
  | emptyObject inside => exact ⟨_,_,rfl,by decide⟩
  | object members => exact ⟨_,_,rfl,by decide⟩
  | broken => simp [Node.isClosed] at closed

mutual
/-- A bound on the steps into the tree. -/
def Node.steps : Node → Nat
  | .array items => items.steps + 1
  | .object members => members.steps + 1
  | _ => 1
def Items.steps : Items → Nat
  | .last _ item _ => item.steps + 1
  | .more _ item _ rest => item.steps + rest.steps + 1
  | .cut _ item => item.steps + 1
def Members.steps : Members → Nat
  | .last _ value _ => value.steps + 1
  | .more _ value _ rest => value.steps + rest.steps + 1
  | .cut _ value => value.steps + 1
  | .stop => 1
end

mutual
theorem Node.steps_le : ∀ node : Node, node.isClosed → node.steps ≤ 2 * node.print.length
  | .null,_ => by simp [Node.steps,Node.print]
  | .boolean true,_ => by simp [Node.steps,Node.print]
  | .boolean false,_ => by simp [Node.steps,Node.print]
  | .number literal,closed => by
    obtain ⟨c,rest,print,_⟩ := Node.print_front (.number literal) closed
    simp only [print,Node.steps,List.length_cons]
    omega
  | .string literal,_ => by simp [Node.steps,Node.print,Literal.print]; omega
  | .emptyArray inside,_ => by simp [Node.steps,Node.print]; omega
  | .array items,closed => by
    have bound := items.steps_le closed
    simp only [Node.steps,Node.print,List.length_cons]
    omega
  | .emptyObject inside,_ => by simp [Node.steps,Node.print]; omega
  | .object members,closed => by
    have bound := members.steps_le closed
    simp only [Node.steps,Node.print,List.length_cons]
    omega
theorem Items.steps_le : ∀ items : Items, items.isClosed → items.steps ≤ 2 * items.print.length
  | .last _ item _,closed => by
    have bound := item.steps_le closed
    simp only [Items.steps,Items.print,List.length_append,List.length_cons]
    omega
  | .more _ item _ rest,closed => by
    simp only [Items.isClosed,Bool.and_eq_true] at closed
    have bound := item.steps_le closed.1
    have others := rest.steps_le closed.2
    simp only [Items.steps,Items.print,List.length_append,List.length_cons]
    omega
theorem Members.steps_le : ∀ members : Members, members.isClosed → members.steps ≤ 2 * members.print.length
  | .last _ value _,closed => by
    have bound := value.steps_le closed
    simp only [Members.steps,Members.print,List.length_append,List.length_cons]
    omega
  | .more _ value _ rest,closed => by
    simp only [Members.isClosed,Bool.and_eq_true] at closed
    have bound := value.steps_le closed.1
    have others := rest.steps_le closed.2
    simp only [Members.steps,Members.print,List.length_append,List.length_cons]
    omega
end

theorem startsNode_ne {c : Char} (starts : startsNode c = true) :
    isBlank c = false ∧ c ≠ ']' ∧ c ≠ '}' ∧ c ≠ ',' ∧ c ≠ ':' := by
  simpa [startsNode,and_assoc] using starts

theorem Items.body_front (items : Items) (closed : items.isClosed) :
    ∃ c rest, items.body = c :: rest ∧ startsNode c = true := by
  cases items with
  | last before item after =>
    obtain ⟨c,rest,print,starts⟩ := item.print_front closed
    exact ⟨c,_,by rw [Items.body,print]; rfl,starts⟩
  | more before item after items =>
    simp only [Items.isClosed,Bool.and_eq_true] at closed
    obtain ⟨c,rest,print,starts⟩ := item.print_front closed.1
    exact ⟨c,_,by rw [Items.body,print]; rfl,starts⟩
  | cut before item => simp [Items.isClosed] at closed

theorem Members.body_front (members : Members) (closed : members.isClosed) :
    ∃ rest, members.body = '"' :: rest := by
  cases members with
  | last label value after => exact ⟨_,rfl⟩
  | more label value after rest => exact ⟨_,rfl⟩
  | cut label value => simp [Members.isClosed] at closed
  | stop => simp [Members.isClosed] at closed

theorem Node.stops_blank {node : Node} (closed : node.isClosed) (rest : List Char) :
    Stops isBlank (node.print ++ rest) := by
  obtain ⟨c,tail,print,starts⟩ := node.print_front closed
  rw [print]
  exact Stops.cons (startsNode_ne starts).1

/-- A sign or a digit. -/
def startsNumber (c : Char) : Bool := c == '-' || isDigit c

theorem digit_startsNumber : ∀ digit : Digit, startsNumber digit.char = true := by decide

theorem NumberLiteral.print_front (literal : NumberLiteral) :
    ∃ c rest, literal.print = c :: rest ∧ startsNumber c = true := by
  cases sign : literal.negative with
  | true => exact ⟨'-',literal.printUnsigned,by simp [NumberLiteral.print,sign],by decide⟩
  | false =>
    exact ⟨literal.whole.digits.first.char,_,by
      simp only [NumberLiteral.print,sign,Bool.false_eq_true,if_false]
      rfl,digit_startsNumber _⟩

theorem scanNode_number (fuel : Nat) {c : Char} {tail rest : List Char} {literal : NumberLiteral}
    (starts : startsNumber c = true) (scanned : NumberLiteral.scan (c :: tail) = some (literal,rest)) :
    scanNode (fuel + 1) (c :: tail) = (.number literal,rest) := by
  unfold scanNode
  split
  next same => exact absurd ((List.cons.inj same).1 ▸ starts) (by decide)
  next same => exact absurd ((List.cons.inj same).1 ▸ starts) (by decide)
  next same => exact absurd ((List.cons.inj same).1 ▸ starts) (by decide)
  next same => exact absurd ((List.cons.inj same).1 ▸ starts) (by decide)
  next same => exact absurd ((List.cons.inj same).1 ▸ starts) (by decide)
  next same => exact absurd ((List.cons.inj same).1 ▸ starts) (by decide)
  next => simp [scanned]

mutual
theorem scanNode_print : ∀ (node : Node) (fuel : Nat) (rest : List Char), node.isClosed →
    node.steps ≤ fuel → Stops continuesNumber rest → scanNode fuel (node.print ++ rest) = (node,rest)
  | node,0,rest,_,enough,_ => by cases node <;> simp [Node.steps] at enough
  | .null,fuel + 1,rest,_,_,_ => by simp [Node.print,scanNode]
  | .boolean true,fuel + 1,rest,_,_,_ => by simp [Node.print,scanNode]
  | .boolean false,fuel + 1,rest,_,_,_ => by simp [Node.print,scanNode]
  | .string literal,fuel + 1,rest,_,_,_ => by
    simp [Node.print,Literal.print_append,scanNode,Literal.scan_print]
  | .number literal,fuel + 1,rest,_,_,stops => by
    have scanned := literal.scan_print stops
    obtain ⟨c,tail,print,front⟩ := literal.print_front
    simp only [Node.print]
    rw [print,List.cons_append] at scanned ⊢
    exact scanNode_number fuel front scanned
  | .emptyArray inside,fuel + 1,rest,_,_,_ => by
    have scanned := inside.scan_print (']' :: rest) (Stops.cons (by decide))
    simp [Node.print,scanNode,scanned]
  | .array items,fuel + 1,rest,closed,enough,_ => by
    obtain ⟨c,tail,body,starts⟩ := items.body_front closed
    have scanned := items.before.scan_print (items.body ++ rest)
      (by rw [body]; exact Stops.cons (startsNode_ne starts).1)
    have step := scanItems_body items fuel rest closed (by simpa [Node.steps] using enough)
    simp only [Node.print,List.cons_append,items.print_eq,List.append_assoc,scanNode,scanned]
    split
    next same =>
      rw [body] at same
      exact absurd (List.cons.inj same).1 (startsNode_ne starts).2.1
    next => simp [step]
  | .emptyObject inside,fuel + 1,rest,_,_,_ => by
    have scanned := inside.scan_print ('}' :: rest) (Stops.cons (by decide))
    simp [Node.print,scanNode,scanned]
  | .object members,fuel + 1,rest,closed,enough,_ => by
    obtain ⟨tail,body⟩ := members.body_front closed
    have scanned := members.before.scan_print (members.body ++ rest)
      (by rw [body]; exact Stops.cons (by decide))
    have step := scanMembers_body members fuel rest closed (by simpa [Node.steps] using enough)
    simp only [Node.print,List.cons_append,members.print_eq,List.append_assoc,scanNode,scanned]
    split
    next same =>
      rw [body] at same
      exact absurd (List.cons.inj same).1 (by decide)
    next => simp [step]
theorem scanItems_body : ∀ (items : Items) (fuel : Nat) (rest : List Char), items.isClosed →
    items.steps ≤ fuel → scanItems fuel items.before (items.body ++ rest) = (items,rest)
  | items,0,rest,_,enough => by cases items <;> simp [Items.steps] at enough
  | .last before item after,fuel + 1,rest,closed,enough => by
    have step := scanNode_print item fuel (after.print ++ ']' :: rest) closed
      (by simpa [Items.steps] using enough) (gap_stops after (by decide))
    have scanned := after.scan_print (']' :: rest) (Stops.cons (by decide))
    simp [Items.body,Items.before,scanItems,step,scanned]
  | .more before item after others,fuel + 1,rest,closed,enough => by
    simp only [Items.isClosed,Bool.and_eq_true] at closed
    simp only [Items.steps] at enough
    obtain ⟨c,tail,body,starts⟩ := others.body_front closed.2
    have step := scanNode_print item fuel (after.print ++ ',' :: (others.print ++ rest)) closed.1
      (by omega) (gap_stops after (by decide))
    have scanned := after.scan_print (',' :: (others.print ++ rest)) (Stops.cons (by decide))
    have next := others.before.scan_print (others.body ++ rest)
      (by rw [body]; exact Stops.cons (startsNode_ne starts).1)
    have following := scanItems_body others fuel rest closed.2 (by omega)
    rw [others.print_eq,List.append_assoc] at step scanned
    change scanItems (fuel + 1) before (item.print ++ (after.print ++ ',' :: others.print) ++ rest) = _
    simp [scanItems,others.print_eq,step,scanned,next,following]
theorem scanMembers_body : ∀ (members : Members) (fuel : Nat) (rest : List Char), members.isClosed →
    members.steps ≤ fuel → scanMembers fuel members.before (members.body ++ rest) = (members,rest)
  | members,0,rest,_,enough => by cases members <;> simp [Members.steps] at enough
  | .last label value after,fuel + 1,rest,closed,enough => by
    have colon := label.beforeColon.scan_print
      (':' :: (label.afterColon.print ++ (value.print ++ (after.print ++ '}' :: rest))))
      (Stops.cons (by decide))
    have gap := label.afterColon.scan_print _ (Node.stops_blank closed (after.print ++ '}' :: rest))
    have step := scanNode_print value fuel (after.print ++ '}' :: rest) closed
      (by simpa [Members.steps] using enough) (gap_stops after (by decide))
    have scanned := after.scan_print ('}' :: rest) (Stops.cons (by decide))
    simp [Members.body,Members.before,Label.body,Literal.print_append,scanMembers,Literal.scan_print,
      colon,gap,step,scanned]
  | .more label value after others,fuel + 1,rest,closed,enough => by
    simp only [Members.isClosed,Bool.and_eq_true] at closed
    simp only [Members.steps] at enough
    obtain ⟨tail,body⟩ := others.body_front closed.2
    have colon := label.beforeColon.scan_print
      (':' :: (label.afterColon.print ++ (value.print ++ (after.print ++ ',' :: (others.before.print ++ (others.body ++ rest))))))
      (Stops.cons (by decide))
    have gap := label.afterColon.scan_print _
      (Node.stops_blank closed.1 (after.print ++ ',' :: (others.before.print ++ (others.body ++ rest))))
    have step := scanNode_print value fuel (after.print ++ ',' :: (others.before.print ++ (others.body ++ rest)))
      closed.1 (by omega) (gap_stops after (by decide))
    have scanned := after.scan_print (',' :: (others.before.print ++ (others.body ++ rest)))
      (Stops.cons (by decide))
    have next := others.before.scan_print (others.body ++ rest)
      (by rw [body]; exact Stops.cons (by decide))
    have following := scanMembers_body others fuel rest closed.2 (by omega)
    change scanMembers (fuel + 1) label.before
      (label.body ++ (value.print ++ (after.print ++ ',' :: others.print)) ++ rest) = _
    simp [Label.body,Literal.print_append,scanMembers,Literal.scan_print,
      others.print_eq,colon,gap,step,scanned,next,following]
end

namespace Document

/-- A whole JSON text between blanks is read as what it was printed from. -/
theorem ofChars_print (before after : Gap) {node : Node} (closed : node.isClosed) :
    ofChars (before.print ++ (node.print ++ after.print)) = ⟨before,node,after,[]⟩ := by
  have first := before.scan_print _ (Node.stops_blank closed after.print)
  have ends : Stops continuesNumber (after.print ++ []) := by
    cases after with
    | nil => exact fun c member => by simp [Gap.print] at member
    | cons blank after => cases blank <;> exact Stops.cons (by decide)
  have bound := node.steps_le closed
  have step := scanNode_print node (2 * (before.print ++ (node.print ++ after.print)).length + 2)
    (after.print ++ []) closed (by simp only [List.length_append]; omega) ends
  have last := after.scan_print ([]) (fun c member => by simp at member)
  simp only [List.append_nil] at step last
  simp only [ofChars,first,step,last]

theorem ofText_print {node : Node} (closed : node.isClosed) :
    ofText (String.ofList node.print) = ⟨[],node,[],[]⟩ := by
  simpa [ofText,Gap.print] using ofChars_print [] [] closed

end Document

theorem Raw.ofText?_text (raw : Raw) : Raw.ofText? raw.text = some raw := by
  simp [Raw.ofText?,Raw.text,Node.text_eq,Document.ofText_print raw.closed,raw.closed]

end Jmap.Json
