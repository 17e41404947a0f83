import Jmap.Proofs.Decoding

/-! Decoding gives exactly the result that the two phases of a body have, for requests
and for responses. The elements of the calls are slices of the text: the text is its
tree printed, and the elements stand in that tree one after the other. -/
namespace Jmap
open Json Outcome

/-- The calls stand in the text under a name, or in an array at a place: an array of
arrays whose items are the elements as they are spelled there. Without that part
there are none. -/
def Listed (text name : String) (place : Nat) (calls : List (List Raw)) : Prop :=
  (Document.ofText text).print = text.toList ∧
    match (Document.ofText text).root.field? name place with
    | none => calls = []
    | some node => ∃ nodes, node.items? = some nodes ∧
        List.Forall₂ (fun node elements => node.items? = some (elements.map Raw.node)) nodes calls

theorem Triplet.items?_of_elementsReader {room : Nat} {node : Node} {elements : List Raw}
    (read : elementsReader room node = .ok elements) : node.items? = some (elements.map Raw.node) := by
  obtain ⟨nodes,inner,_,items,related⟩ := Reader.of_list read
  rw [items]
  congr 1
  rw [← List.forall₂_eq_eq_eq,List.forall₂_map_right_iff]
  refine related.imp fun part raw kept => ?_
  unfold Reader.raw at kept
  split at kept
  · cases kept
    rfl
  · contradiction

theorem listed_of_read {R : Type} {fields : List (RecordField R)} {start body : R} {get : R → List (List Raw)}
    {text name : String} {place : Nat} (known : IsField fields name place (.list Triplet.elementsReader) get)
    (whole : ∀ field ∈ fields, field.read.Whole) (none : get start = [])
    (read : (Reader.record fields start).ofText text = .ok body) : Listed text name place (get body) := by
  have inner := Reader.root_of_ofText read
  refine ⟨Document.print_ofText (Reader.Whole.record whole start _ _ _ inner),?_⟩
  obtain ⟨room,_,found⟩ := Reader.of_record known inner
  cases part : (Document.ofText text).root.field? name place with
  | none => rw [part] at found; exact found.trans none
  | some node =>
    rw [part] at found
    obtain ⟨nodes,depth,_,items,related⟩ := Reader.of_list found
    exact ⟨nodes,items,related.imp fun _ _ => Triplet.items?_of_elementsReader⟩

theorem Triplet.whole_elementsReader : elementsReader.Whole := Reader.Whole.raw.list

theorem CreatedIds.whole_reader : CreatedIds.reader.Whole :=
  Reader.Whole.checkedMap (Reader.Whole.text.andThen _) _

/-- The result of a text: of a body that cannot be read its defect, and of any other the
body put together with what its phases give. -/
inductive Decoded {B C M : Type} (reader : Reader B) (name : String) (place : Nat) (listed : B → List (List Raw))
    (Decodes : Triplet → C → Prop) (Refuses : Triplet → Error → Prop) (assemble : B → List C → M)
    (text : String) : Except Error M → Prop where
  | unparsed {defect : Defect} (unread : reader.ofText text = .error defect) :
    Decoded reader name place listed Decodes Refuses assemble text (.error (.serialization defect))
  | parsed {body : B} {outcome : Except Error (List C)} (read : reader.ofText text = .ok body)
    (source : Listed text name place (listed body)) (phases : Phases Decodes Refuses (listed body) outcome) :
    Decoded reader name place listed Decodes Refuses assemble text (assemble body <$> outcome)

section
variable {B C M : Type} {fields : List (RecordField B)} {start : B} {name : String} {place : Nat}
  {listed : B → List (List Raw)} {decodeCall : Triplet → Except Error C} {Decodes : Triplet → C → Prop}
  {Refuses : Triplet → Error → Prop} {assemble : B → List C → M} {decode : B → Except Error M}

theorem decoded_iff (known : IsField fields name place (.list Triplet.elementsReader) listed)
    (whole : ∀ field ∈ fields, field.read.Whole) (none : listed start = [])
    (decodes : ∀ {triplet call}, decodeCall triplet = .ok call ↔ Decodes triplet call)
    (refuses : ∀ {triplet error}, decodeCall triplet = .error error ↔ Refuses triplet error)
    (staged : ∀ body, decode body = assemble body <$>
      ((listed body).mapM Triplet.ofElements >>= fun triplets => triplets.mapM decodeCall))
    {text : String} {result : Except Error M} :
    ((Reader.record fields start).ofText text).mapError .serialization >>= decode = result ↔
      Decoded (.record fields start) name place listed Decodes Refuses assemble text result := by
  constructor
  · intro found
    cases read : (Reader.record fields start).ofText text with
    | error defect =>
      rw [read] at found
      subst found
      exact .unparsed read
    | ok body =>
      rw [read,mapError_ok,ok_bind,staged] at found
      subst found
      have source := listed_of_read known whole none read
      exact .parsed read source ((phases_iff decodes refuses).mp rfl)
  · intro decoded
    cases decoded with
    | unparsed unread =>
      rw [unread]
      rfl
    | parsed read _ phases =>
      rw [read,mapError_ok,ok_bind,staged,(phases_iff decodes refuses).mpr phases]

end

namespace Request
variable {A : Type}

theorem Body.whole_fields : ∀ field ∈ Body.fields, field.read.Whole := by
  have uses := Reader.Whole.text.list
  have calls := Triplet.whole_elementsReader.list
  have createdIds := CreatedIds.whole_reader.nullable
  simp only [fields,List.forall_mem_cons]
  exact ⟨uses.map _,calls.map _,createdIds.map _,by simp⟩

theorem Body.isField_calls : IsField Body.fields "methodCalls" 1 (.list Triplet.elementsReader) Body.calls := by
  refine IsField.at rfl (fun _ _ => rfl) (by decide) ?_
  simp only [fields,List.eraseIdx,List.forall_mem_cons]
  refine ⟨?_,?_,by simp⟩ <;> exact fun _ _ _ => RecordField.keeps_of fun _ _ => rfl

theorem Body.decode_eq (registry : Registry A) (body : Body) : body.decode registry =
    (⟨body.uses,·,body.createdIds⟩) <$>
      (body.calls.mapM Triplet.ofElements >>= fun triplets => triplets.mapM registry.decodeCall) := by
  unfold decode
  cases body.calls.mapM Triplet.ofElements with
  | error => rfl
  | ok triplets => cases triplets.mapM registry.decodeCall <;> rfl

theorem of_decode {registry : Registry A} {text : String} {request : Request A}
    (decoded : decode registry text = .ok request) : ∃ body triplets, Body.reader.ofText text = .ok body ∧
      body.calls.mapM Triplet.ofElements = .ok triplets ∧ triplets.mapM registry.decodeCall = .ok request.calls ∧
      request = ⟨body.uses,request.calls,body.createdIds⟩ := by
  obtain ⟨body,read,understood⟩ := bind_eq_ok_iff.mp decoded
  rw [Body.decode_eq] at understood
  obtain ⟨calls,phases,rfl⟩ := map_eq_ok_iff.mp understood
  obtain ⟨triplets,split,resolved⟩ := bind_eq_ok_iff.mp phases
  exact ⟨body,triplets,mapError_eq_ok_iff.mp read,split,resolved,rfl⟩

def Decoded (registry : Registry A) : String → Except Error (Request A) → Prop :=
  Jmap.Decoded Body.reader "methodCalls" 1 Body.calls registry.Decodes registry.Refuses
    fun body calls => ⟨body.uses,calls,body.createdIds⟩

end Request

namespace Response
variable {A : Type}

theorem Body.whole_fields : ∀ field ∈ Body.fields, field.read.Whole := by
  have entries := Triplet.whole_elementsReader.list
  have createdIds := CreatedIds.whole_reader.nullable
  simp only [fields,List.forall_mem_cons]
  exact ⟨entries.map _,createdIds.map _,Reader.Whole.text.map _,by simp⟩

theorem Body.isField_entries :
    IsField Body.fields "methodResponses" 0 (.list Triplet.elementsReader) Body.entries := by
  refine IsField.at rfl (fun _ _ => rfl) (by decide) ?_
  simp only [fields,List.eraseIdx,List.forall_mem_cons]
  refine ⟨?_,?_,by simp⟩ <;> exact fun _ _ _ => RecordField.keeps_of fun _ _ => rfl

theorem Body.decode_eq (registry : Registry A) (body : Body) : body.decode registry =
    (⟨·,body.createdIds,body.sessionState⟩) <$>
      (body.entries.mapM Triplet.ofElements >>= fun triplets =>
        triplets.mapM (MethodResponse.ofTriplet registry)) := by
  unfold decode
  cases body.entries.mapM Triplet.ofElements with
  | error => rfl
  | ok triplets => cases triplets.mapM (MethodResponse.ofTriplet registry) <;> rfl

theorem of_decode {registry : Registry A} {text : String} {response : Response A}
    (decoded : decode registry text = .ok response) : ∃ body triplets, Body.reader.ofText text = .ok body ∧
      body.entries.mapM Triplet.ofElements = .ok triplets ∧
      triplets.mapM (MethodResponse.ofTriplet registry) = .ok response.entries ∧
      response = ⟨response.entries,body.createdIds,body.sessionState⟩ := by
  obtain ⟨body,read,understood⟩ := bind_eq_ok_iff.mp decoded
  rw [Body.decode_eq] at understood
  obtain ⟨entries,phases,rfl⟩ := map_eq_ok_iff.mp understood
  obtain ⟨triplets,split,resolved⟩ := bind_eq_ok_iff.mp phases
  exact ⟨body,triplets,mapError_eq_ok_iff.mp read,split,resolved,rfl⟩

def Decoded (registry : Registry A) : String → Except Error (Response A) → Prop :=
  Jmap.Decoded Body.reader "methodResponses" 0 Body.entries (MethodResponse.Decodes registry)
    (MethodResponse.Refuses registry) fun body entries => ⟨entries,body.createdIds,body.sessionState⟩

end Response

theorem decode_in_two_phases {A : Type} (registry : Registry A) (text : String) :
    (∀ result, Request.decode registry text = result ↔ Request.Decoded registry text result) ∧
      ∀ result, Response.decode registry text = result ↔ Response.Decoded registry text result := by
  constructor
  · intro result
    exact decoded_iff Request.Body.isField_calls Request.Body.whole_fields rfl Registry.decodeCall_eq_ok_iff
      Registry.decodeCall_eq_error_iff (Request.Body.decode_eq registry)
  · intro result
    exact decoded_iff Response.Body.isField_entries Response.Body.whole_fields rfl MethodResponse.ofTriplet_eq_ok_iff
      MethodResponse.ofTriplet_eq_error_iff (Response.Body.decode_eq registry)

end Jmap
