import Jmap.Json.Document
import Jmap.Json.Spelling

/-! Scanning loses nothing: wherever a tree does not break off, the text is the tree
printed, followed by what the scan left. -/
namespace Jmap.Json

theorem HexDigit.char_of_ofChar? {c : Char} {digit : HexDigit} (read : ofChar? c = some digit) : digit.char = c := by
  unfold ofChar? at read
  split at read
  · cases read; rfl
  · contradiction

theorem Escape.letter_of_ofLetter? {c : Char} {short : Escape} (read : ofLetter? c = some short) :
    short.letter = c := by
  unfold ofLetter? at read
  split at read <;> cases read <;> rfl

theorem Blank.char_of_ofChar? {c : Char} {blank : Blank} (read : ofChar? c = some blank) : blank.char = c := by
  unfold ofChar? at read
  split at read <;> cases read <;> rfl

theorem Digit.char_of_ofChar? {c : Char} {digit : Digit} (read : ofChar? c = some digit) : digit.char = c := by
  unfold ofChar? at read
  split at read
  next inside =>
    cases read
    have whole : '0'.toNat + (c.toNat - '0'.toNat) = c.toNat := by omega
    simp only [char,whole,Char.ofNat_toNat]
  next => contradiction

theorem Literal.scan_source {cs rest : List Char} {literal : Literal} (scanned : scan cs = some (literal,rest)) :
    cs = literal.flatMap Piece.print ++ '"' :: rest := by
  fun_induction scan cs generalizing literal rest with
  | case1 => contradiction
  | case2 tail => cases scanned; rfl
  | case3 a b c d tail ih =>
    simp only [Option.bind_eq_bind,Option.bind_eq_some_iff] at scanned
    obtain ⟨first,readA,second,readB,third,readC,fourth,readD,⟨pieces,left⟩,following,same⟩ := scanned
    cases same
    rw [ih following]
    simp [Piece.print,HexDigit.char_of_ofChar? readA,HexDigit.char_of_ofChar? readB,
      HexDigit.char_of_ofChar? readC,HexDigit.char_of_ofChar? readD]
  | case4 letter tail _ ih =>
    simp only [Option.bind_eq_bind,Option.bind_eq_some_iff] at scanned
    obtain ⟨short,read,⟨pieces,left⟩,following,same⟩ := scanned
    cases same
    rw [ih following]
    simp [Piece.print,Escape.letter_of_ofLetter? read]
  | case5 c tail _ _ _ allowed ih =>
    simp only [Option.bind_eq_bind,Option.bind_eq_some_iff] at scanned
    obtain ⟨⟨pieces,left⟩,following,same⟩ := scanned
    cases same
    rw [ih following]
    rfl
  | case6 => contradiction

theorem Gap.scan_source (cs : List Char) : (scan cs).1.print ++ (scan cs).2 = cs := by
  induction cs with
  | nil => rfl
  | cons c cs ih =>
    unfold scan
    cases read : Blank.ofChar? c with
    | none => rfl
    | some blank =>
      have front : blank.char :: (print (scan cs).1 ++ (scan cs).2) = c :: cs := by
        rw [ih,Blank.char_of_ofChar? read]
      exact front

theorem Gap.exists_scan (cs : List Char) : ∃ gap rest, scan cs = (gap,rest) ∧ cs = gap.print ++ rest :=
  ⟨_,_,rfl,(scan_source cs).symm⟩

theorem Digits.scan_source (cs : List Char) : print (scan cs).1 ++ (scan cs).2 = cs := by
  induction cs with
  | nil => rfl
  | cons c cs ih =>
    unfold scan
    cases read : Digit.ofChar? c with
    | none => rfl
    | some digit =>
      have front : digit.char :: (print (scan cs).1 ++ (scan cs).2) = c :: cs := by
        rw [ih,Digit.char_of_ofChar? read]
      exact front

theorem SomeDigits.toList_of_ofList? {digits : List Digit} {nonempty : SomeDigits}
    (made : ofList? digits = some nonempty) : nonempty.toList = digits := by
  cases digits with
  | nil => contradiction
  | cons first rest => cases made; rfl

namespace NumberLiteral

theorem scanWhole_source {cs rest : List Char} {whole : Whole} (scanned : scanWhole cs = some (whole,rest)) :
    cs = Digits.print whole.digits.toList ++ rest := by
  unfold scanWhole at scanned
  obtain ⟨digits,made,scanned⟩ := Option.bind_eq_some_iff.mp scanned
  split at scanned
  · cases scanned
    rw [SomeDigits.toList_of_ofList? made,Digits.scan_source]
  · contradiction

theorem scanFraction_source {cs rest : List Char} {fraction : Option SomeDigits}
    (scanned : scanFraction cs = some (fraction,rest)) : cs = printFraction fraction ++ rest := by
  unfold scanFraction at scanned
  split at scanned
  · obtain ⟨digits,made,same⟩ := Option.bind_eq_some_iff.mp scanned
    cases same
    rw [printFraction,SomeDigits.toList_of_ofList? made,List.cons_append,Digits.scan_source]
  · cases scanned; rfl

theorem scanSign_source (cs : List Char) : (scanSign cs).1.print ++ (scanSign cs).2 = cs := by
  unfold scanSign
  split <;> rfl

theorem scanExponentDigits_source {capital : Bool} {cs rest : List Char} {exponent : Option Exponent}
    (scanned : scanExponentDigits capital cs = some (exponent,rest)) :
    (if capital then 'E' else 'e') :: cs = printExponent exponent ++ rest := by
  have source := scanSign_source cs
  unfold scanExponentDigits at scanned
  generalize scanSign cs = signed at source scanned
  obtain ⟨digits,made,same⟩ := Option.bind_eq_some_iff.mp scanned
  cases same
  simp only [printExponent,Exponent.print,SomeDigits.toList_of_ofList? made,List.cons_append,List.append_assoc,
    Digits.scan_source,source]

theorem scanExponent_source {cs rest : List Char} {exponent : Option Exponent}
    (scanned : scanExponent cs = some (exponent,rest)) : cs = printExponent exponent ++ rest := by
  unfold scanExponent at scanned
  split at scanned
  · exact scanExponentDigits_source scanned
  · exact scanExponentDigits_source scanned
  · cases scanned; rfl

theorem scanUnsigned_source {negative : Bool} {cs rest : List Char} {literal : NumberLiteral}
    (scanned : scanUnsigned negative cs = some (literal,rest)) :
    literal.negative = negative ∧ cs = literal.printUnsigned ++ rest := by
  unfold scanUnsigned at scanned
  simp only [Option.bind_eq_bind,Option.bind_eq_some_iff] at scanned
  obtain ⟨⟨whole,afterWhole⟩,wholeRead,⟨fraction,afterFraction⟩,fractionRead,⟨exponent,left⟩,exponentRead,same⟩ := scanned
  cases same
  refine ⟨rfl,?_⟩
  dsimp only at fractionRead exponentRead ⊢
  rw [scanWhole_source wholeRead,scanFraction_source fractionRead,scanExponent_source exponentRead]
  simp [printUnsigned]

theorem scan_source {cs rest : List Char} {literal : NumberLiteral} (scanned : scan cs = some (literal,rest)) :
    cs = literal.print ++ rest := by
  unfold scan at scanned
  split at scanned
  · obtain ⟨sign,source⟩ := scanUnsigned_source scanned
    rw [print,sign,source]
    rfl
  · obtain ⟨sign,source⟩ := scanUnsigned_source scanned
    rw [print,sign,source]
    rfl

end NumberLiteral
mutual
theorem scanNode_source : ∀ (fuel : Nat) (cs : List Char) (node : Node) (rest : List Char),
    scanNode fuel cs = (node,rest) → node.isClosed → cs = node.print ++ rest
  | 0,_,_,_,scanned,closed => by cases scanned; contradiction
  | fuel + 1,cs,node,rest,scanned,closed => by
    unfold scanNode at scanned
    split at scanned
    · cases scanned; rfl
    · cases scanned; rfl
    · cases scanned; rfl
    · split at scanned
      next literal left read =>
        cases scanned
        rw [Literal.scan_source read,Node.print,Literal.print_append]
      next => cases scanned; contradiction
    · next tail =>
      obtain ⟨before,left,gap,source⟩ := Gap.exists_scan tail
      rw [gap] at scanned
      dsimp only at scanned
      split at scanned
      · cases scanned
        simp [Node.print,source]
      · cases inner : scanItems fuel before left with
        | mk items behind =>
          rw [inner] at scanned
          cases scanned
          obtain ⟨same,body⟩ := scanItems_source fuel before left items behind inner closed
          simp [Node.print,Items.print_eq,same,source,body]
    · next tail =>
      obtain ⟨before,left,gap,source⟩ := Gap.exists_scan tail
      rw [gap] at scanned
      dsimp only at scanned
      split at scanned
      · cases scanned
        simp [Node.print,source]
      · cases inner : scanMembers fuel before left with
        | mk members behind =>
          rw [inner] at scanned
          cases scanned
          obtain ⟨same,body⟩ := scanMembers_source fuel before left members behind inner closed
          simp [Node.print,Members.print_eq,same,source,body]
    · split at scanned
      next literal left read =>
        cases scanned
        exact NumberLiteral.scan_source read
      next => cases scanned; contradiction
theorem scanItems_source : ∀ (fuel : Nat) (before : Gap) (cs : List Char) (items : Items) (rest : List Char),
    scanItems fuel before cs = (items,rest) → items.isClosed → items.before = before ∧ cs = items.body ++ rest
  | 0,_,_,_,_,scanned,closed => by cases scanned; contradiction
  | fuel + 1,before,cs,items,rest,scanned,closed => by
    unfold scanItems at scanned
    cases read : scanNode fuel cs with
    | mk item left =>
      obtain ⟨after,behind,gap,source⟩ := Gap.exists_scan left
      rw [read] at scanned
      dsimp only at scanned
      rw [gap] at scanned
      dsimp only at scanned
      split at scanned
      next tail =>
        obtain ⟨before,others,nextGap,nextSource⟩ := Gap.exists_scan tail
        rw [nextGap] at scanned
        dsimp only at scanned
        cases inner : scanItems fuel before others with
        | mk items final =>
          rw [inner] at scanned
          cases scanned
          simp only [Items.isClosed,Bool.and_eq_true] at closed
          obtain ⟨same,body⟩ := scanItems_source fuel before others items final inner closed.2
          refine ⟨rfl,?_⟩
          rw [scanNode_source fuel cs item left read closed.1,source,nextSource,body]
          rw [Items.body,Items.print_eq,same]
          simp
      next tail =>
        cases scanned
        refine ⟨rfl,?_⟩
        rw [scanNode_source fuel cs item left read closed,source]
        simp [Items.body]
      next => cases scanned; contradiction
theorem scanMembers_source : ∀ (fuel : Nat) (before : Gap) (cs : List Char) (members : Members) (rest : List Char),
    scanMembers fuel before cs = (members,rest) → members.isClosed → members.before = before ∧ cs = members.body ++ rest
  | 0,_,_,_,_,scanned,closed => by cases scanned; contradiction
  | fuel + 1,before,cs,members,rest,scanned,closed => by
    unfold scanMembers at scanned
    split at scanned
    next tail =>
      split at scanned
      next => cases scanned; contradiction
      next key left keyRead =>
        obtain ⟨beforeColon,behind,colonGap,colonSource⟩ := Gap.exists_scan left
        rw [colonGap] at scanned
        dsimp only at scanned
        split at scanned
        next valueText =>
          obtain ⟨afterColon,valueStart,valueGap,valueSource⟩ := Gap.exists_scan valueText
          rw [valueGap] at scanned
          dsimp only at scanned
          cases read : scanNode fuel valueStart with
          | mk value left =>
            obtain ⟨after,behind,gap,source⟩ := Gap.exists_scan left
            rw [read] at scanned
            dsimp only at scanned
            rw [gap] at scanned
            dsimp only at scanned
            split at scanned
            next tail =>
              obtain ⟨before,others,nextGap,nextSource⟩ := Gap.exists_scan tail
              rw [nextGap] at scanned
              dsimp only at scanned
              cases inner : scanMembers fuel before others with
              | mk members final =>
                rw [inner] at scanned
                cases scanned
                simp only [Members.isClosed,Bool.and_eq_true] at closed
                obtain ⟨same,body⟩ := scanMembers_source fuel before others members final inner closed.2
                refine ⟨rfl,?_⟩
                rw [Literal.scan_source keyRead,colonSource,valueSource,
                  scanNode_source fuel valueStart value left read closed.1,source,nextSource,body]
                rw [Members.body,Members.print_eq,same]
                simp [Label.body,Literal.print]
            next tail =>
              cases scanned
              refine ⟨rfl,?_⟩
              rw [Literal.scan_source keyRead,colonSource,valueSource,
                scanNode_source fuel valueStart value left read closed,source]
              simp [Members.body,Label.body,Literal.print]
            next => cases scanned; contradiction
        next => cases scanned; contradiction
    next => cases scanned; contradiction
end

/-- A text whose tree is whole is that tree between its blanks, and what trails it. -/
theorem Document.print_ofText {text : String} (closed : (ofText text).root.isClosed) :
    (ofText text).print = text.toList := by
  obtain ⟨before,left,gap,source⟩ := Gap.exists_scan text.toList
  cases read : scanNode (2 * text.toList.length + 2) left with
  | mk root behind =>
    obtain ⟨after,trailing,lastGap,lastSource⟩ := Gap.exists_scan behind
    have document : ofText text = ⟨before,root,after,trailing⟩ := by
      simp only [ofText,ofChars,gap,read,lastGap]
    rw [document] at closed ⊢
    rw [source,scanNode_source _ left root behind read closed,lastSource]
    simp [print]

end Jmap.Json
