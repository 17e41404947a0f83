import Jmap.Pointer
import Jmap.Proofs.Outcome
import Mathlib.Data.List.Induction

/-! The text of a pointer and its tokens say the same. A pointer that was read, and one
that was put together, both keep the text in which their tokens are spelled, and that
spelling is read as those tokens again. -/
namespace Jmap

namespace Text
variable {pattern replacement rest : List Char} {first c : Char}

theorem replace_unmatched (different : pattern.isPrefixOf (c :: rest) = false) :
    replace pattern replacement (c :: rest) = c :: replace pattern replacement rest := by
  simp [replace,replaceBehind,different]

theorem replace_of_ne (different : c ≠ first) :
    replace (first :: pattern) replacement (c :: rest) = c :: replace (first :: pattern) replacement rest := by
  apply replace_unmatched
  rw [List.isPrefixOf_cons_cons,beq_false_of_ne (Ne.symm different),Bool.false_and]

theorem replace_character (first : Char) (replacement text : List Char) :
    replace [first] replacement text = text.flatMap fun c => if c = first then replacement else [c] := by
  induction text with
  | nil => rfl
  | cons c text ih =>
    rw [List.flatMap_cons,← ih]
    by_cases same : c = first
    · simp [replace,replaceBehind,same]
    · rw [if_neg same]
      exact replace_of_ne same

theorem replace_pair (first second : Char) (replacement rest : List Char) :
    replace [first,second] replacement (first :: second :: rest) =
      replacement ++ replace [first,second] replacement rest := by
  simp [replace,replaceBehind]

end Text

namespace Pointer

/-- How a character is spelled inside a token. -/
def escapeChar (c : Char) : List Char :=
  if c = '~' then ['~','0'] else if c = '/' then ['~','1'] else [c]

def escaped (token : List Char) : List Char := token.flatMap escapeChar

def spelling (tokens : List String) : List Char := tokens.flatMap fun token => '/' :: escaped token.toList

def ofTokens (tokens : List String) : Pointer := ⟨String.ofList (spelling tokens),tokens⟩

theorem escaped_cons (c : Char) (token : List Char) : escaped (c :: token) = escapeChar c ++ escaped token :=
  List.flatMap_cons ..

theorem spelling_cons (token : String) (tokens : List String) :
    spelling (token :: tokens) = '/' :: (escaped token.toList ++ spelling tokens) := List.flatMap_cons ..

/-- The spellings of characters inside a token. -/
theorem escapeChar_cases (c : Char) :
    c = '~' ∨ c = '/' ∨ (c ≠ '~' ∧ c ≠ '/' ∧ escapeChar c = [c]) := by
  by_cases tilde : c = '~'
  · exact .inl tilde
  by_cases slash : c = '/'
  · exact .inr (.inl slash)
  · exact .inr (.inr ⟨tilde,slash,by rw [escapeChar,if_neg tilde,if_neg slash]⟩)

theorem escape_eq (token : List Char) : escape token = escaped token := by
  rw [escape,Text.replace_character,Text.replace_character,List.flatMap_assoc]
  apply List.flatMap_congr
  intro c _
  rcases escapeChar_cases c with rfl | rfl | ⟨tilde,slash,plain⟩
  · rfl
  · rfl
  · rw [plain,if_neg tilde,List.flatMap_singleton,if_neg slash]

/-- The slash that stands for `~1` is put behind no tilde, and the tilde for `~0` before no `1`
that is looked at again. -/
theorem unescape_escaped (token : List Char) : unescape (escaped token) = token := by
  induction token with
  | nil => rfl
  | cons c token ih =>
    rw [escaped_cons]
    unfold unescape at ih ⊢
    rcases escapeChar_cases c with rfl | rfl | ⟨tilde,_,plain⟩
    · have kept : Text.replace ['~','1'] ['/'] ('~' :: '0' :: escaped token) =
          '~' :: '0' :: Text.replace ['~','1'] ['/'] (escaped token) := by
        rw [Text.replace_unmatched rfl,Text.replace_of_ne (by decide)]
      change Text.replace _ _ (Text.replace _ _ ('~' :: '0' :: escaped token)) = _
      rw [kept,Text.replace_pair,ih]
      rfl
    · change Text.replace _ _ (Text.replace _ _ ('~' :: '1' :: escaped token)) = _
      rw [Text.replace_pair,List.singleton_append,Text.replace_of_ne (by decide),ih]
    · rw [plain,List.singleton_append,Text.replace_of_ne tilde,Text.replace_of_ne tilde,ih]

theorem slash_not_mem_escaped (token : List Char) : '/' ∉ escaped token := by
  intro member
  obtain ⟨c,_,inside⟩ := List.mem_flatMap.mp member
  rcases escapeChar_cases c with rfl | rfl | ⟨_,slash,plain⟩
  · simp [escapeChar] at inside
  · simp [escapeChar] at inside
  · rw [plain] at inside
    exact slash (List.mem_singleton.mp inside).symm

theorem splitOn_spelling (token : String) (tokens : List String) :
    (escaped token.toList ++ spelling tokens).splitOn '/' = (token :: tokens).map fun token => escaped token.toList := by
  induction tokens generalizing token with
  | nil =>
    have alone := List.splitOn_eq_singleton (slash_not_mem_escaped token.toList)
    simpa [spelling] using alone
  | cons next tokens ih =>
    rw [spelling_cons,List.splitOn_append_cons_self_of_not_mem (slash_not_mem_escaped token.toList),ih]
    rfl

theorem isEscaped_cons {c : Char} (plain : c ≠ '~') (rest : List Char) : isEscaped (c :: rest) = isEscaped rest := by
  rw [isEscaped]
  · exact fun tilde _ => plain tilde
  · exact fun _ _ tilde _ => plain tilde

theorem isEscaped_escaped (token rest : List Char) : isEscaped (escaped token ++ rest) = isEscaped rest := by
  induction token with
  | nil => rfl
  | cons c token ih =>
    rw [escaped_cons,List.append_assoc]
    rcases escapeChar_cases c with rfl | rfl | ⟨tilde,_,plain⟩
    · exact ih
    · exact ih
    · rw [plain,List.singleton_append,isEscaped_cons tilde,ih]

theorem isEscaped_spelling (tokens : List String) : isEscaped (spelling tokens) := by
  induction tokens with
  | nil => rfl
  | cons token tokens ih => rw [spelling_cons,isEscaped_cons (by decide),isEscaped_escaped,ih]

/-- Where each tilde starts an escape, the text up to the next slash spells a token. -/
theorem exists_spelling {cs : List Char} (sound : isEscaped cs) :
    ∃ token tokens, cs = escaped token ++ spelling tokens := by
  fun_induction isEscaped cs with
  | case1 => exact ⟨[],[],rfl⟩
  | case2 => contradiction
  | case3 c rest ih =>
    rw [Bool.and_eq_true,Bool.or_eq_true,beq_iff_eq,beq_iff_eq] at sound
    obtain ⟨token,tokens,same⟩ := ih sound.2
    rcases sound.1 with rfl | rfl
    · exact ⟨'~' :: token,tokens,by rw [same]; rfl⟩
    · exact ⟨'/' :: token,tokens,by rw [same]; rfl⟩
  | case4 c rest notLast notBefore ih =>
    obtain ⟨token,tokens,same⟩ := ih sound
    rcases escapeChar_cases c with rfl | rfl | ⟨_,_,plain⟩
    · cases rest with
      | nil => exact absurd rfl (notLast rfl)
      | cons next rest => exact absurd rfl (notBefore next rest rfl)
    · exact ⟨[],String.ofList token :: tokens,by rw [spelling_cons,String.toList_ofList,same]; rfl⟩
    · exact ⟨c :: token,tokens,by rw [escaped_cons,plain,same]; rfl⟩

theorem ofText?_text (tokens : List String) : ofText? (ofTokens tokens).text = some (ofTokens tokens) := by
  rw [ofText?,ofTokens,String.toList_ofList]
  cases tokens with
  | nil => rfl
  | cons token tokens =>
    have sound := isEscaped_spelling (token :: tokens)
    rw [spelling_cons] at sound ⊢
    simp only [if_pos sound,splitOn_spelling,List.map_map,Function.comp_def,unescape_escaped,String.ofList_toList,
      List.map_id']

/-- A text that is read is kept, and it is the one in which the tokens are spelled. -/
theorem of_ofText? {text : String} {pointer : Pointer} (parsed : ofText? text = some pointer) :
    pointer.text = text ∧ pointer = ofTokens pointer.tokens := by
  have spelled : ∃ tokens, text.toList = spelling tokens := by
    unfold ofText? at parsed
    split at parsed
    next empty => exact ⟨[],empty⟩
    next rest front =>
      split at parsed
      next sound =>
        rw [isEscaped_cons (by decide)] at sound
        obtain ⟨token,tokens,same⟩ := exists_spelling sound
        exact ⟨String.ofList token :: tokens,by rw [front,spelling_cons,String.toList_ofList,same]⟩
      · contradiction
    · contradiction
  obtain ⟨tokens,same⟩ := spelled
  have text : (ofTokens tokens).text = text := by rw [ofTokens,← same,String.ofList_toList]
  rw [← text,ofText?_text] at parsed
  cases parsed
  exact ⟨text,rfl⟩

theorem parse_eq_ok_iff {text : String} {pointer : Pointer} :
    parse text = .ok pointer ↔ ofText? text = some pointer := by
  unfold parse
  cases ofText? text <;> simp

/-- The pointers that come about: the root, those that are read, and what is joined to them. -/
inductive Reachable : Pointer → Prop where
  | root : Reachable root
  | parsed {text : String} {pointer : Pointer} (read : parse text = .ok pointer) : Reachable pointer
  | joined {pointer : Pointer} (earlier : Reachable pointer) (token : String) : Reachable (pointer.join token)

theorem join_ofTokens (tokens : List String) (token : String) :
    (ofTokens tokens).join token = ofTokens (tokens ++ [token]) := by
  simp [join,ofTokens,escape_eq,spelling]

theorem Reachable.eq_ofTokens {pointer : Pointer} (reachable : Reachable pointer) :
    pointer = ofTokens pointer.tokens := by
  induction reachable with
  | root => rfl
  | parsed read => exact (of_ofText? (parse_eq_ok_iff.mp read)).2
  | joined _ token ih =>
    rw [ih,join_ofTokens]
    rfl

theorem Reachable.ofText?_text {pointer : Pointer} (reachable : Reachable pointer) :
    ofText? pointer.text = some pointer := by
  rw [reachable.eq_ofTokens]
  exact Pointer.ofText?_text pointer.tokens

theorem foldl_join (tokens : List String) : tokens.foldl join root = ofTokens tokens := by
  induction tokens using List.reverseRecOn with
  | nil => rfl
  | append_singleton tokens token ih => rw [List.foldl_concat,ih,join_ofTokens]

/-- Text and tokens of a pointer determine each other, however it came about. -/
theorem text_of_tokens :
    (∀ pointer, Reachable pointer →
      pointer.text = String.ofList (pointer.tokens.flatMap fun token => '/' :: token.toList.flatMap escapeChar) ∧
      parse pointer.text = .ok pointer ∧
      (∀ token, (pointer.join token).tokens = pointer.tokens ++ [token] ∧
        parse (pointer.join token).text = .ok (pointer.join token)) ∧
      ∀ other, Reachable other → (pointer.text = other.text ↔ pointer.tokens = other.tokens)) ∧
    ∀ text pointer, parse text = .ok pointer → pointer.tokens.foldl join root = pointer ∧ pointer.text = text := by
  have reread : ∀ pointer, Reachable pointer → parse pointer.text = .ok pointer := by
    intro pointer reachable
    rw [reachable.eq_ofTokens]
    exact parse_eq_ok_iff.mpr (ofText?_text pointer.tokens)
  refine ⟨fun pointer reachable => ⟨?_,reread pointer reachable,?_,?_⟩,?_⟩
  · exact congrArg Pointer.text reachable.eq_ofTokens
  · exact fun token => ⟨rfl,reread _ (reachable.joined token)⟩
  · intro other made
    constructor
    · intro same
      have parsed := reread pointer reachable
      rw [same,reread other made] at parsed
      cases parsed
      rfl
    · intro same
      rw [reachable.eq_ofTokens,made.eq_ofTokens,same]
  · intro text pointer read
    obtain ⟨kept,spelled⟩ := of_ofText? (parse_eq_ok_iff.mp read)
    exact ⟨by rw [foldl_join,← spelled],kept⟩

theorem text_of_tokens_tilde :
    let read : Pointer := ⟨"/~01",["~1"]⟩
    let pointer := (read.join "").join "a/~0"
    pointer.text = "/~01//a~1~00" ∧ parse pointer.text = .ok pointer ∧
      (read.text = (root.join "/").text ↔ read.tokens = (root.join "/").tokens) ∧
      read.tokens.foldl join root = read := by
  intro read pointer
  have parsed : parse "/~01" = .ok read := rfl
  have made : Reachable read := .parsed parsed
  have reachable : Reachable pointer := (made.joined "").joined "a/~0"
  obtain ⟨text,reread,_,_⟩ := text_of_tokens.1 pointer reachable
  refine ⟨?_,reread,?_,(text_of_tokens.2 "/~01" read parsed).1⟩
  · rw [text]
    decide
  · exact (text_of_tokens.1 read made).2.2.2 _ (Reachable.root.joined "/")

end Pointer
end Jmap
