import Jmap.Proofs.Json.Reading
import Jmap.Proofs.Json.Source
import Jmap.Response

/-! Bodies are decoded in two phases and as a whole. The judgments here say which
result a body has without saying how it is found: the first malformed triplet decides
before any decoder is asked, then the first call that is refused, and otherwise every
call is decoded from the source text of its arguments. -/
namespace Jmap
open Json Outcome

namespace Triplet

/-- A name, an object and a call id, spelled in any way. -/
def Spelled (elements : List Raw) (triplet : Triplet) : Prop :=
  ∃ name callId, elements = [name,triplet.arguments,callId] ∧
    Reader.text.ofRaw name = .ok triplet.name ∧ Reader.text.ofRaw callId = .ok triplet.callId

/-- The fault that counts: of the number of elements, the name, the arguments and the
call id the first that is wrong. -/
inductive Malformed : List Raw → Error → Prop where
  | arity {elements : List Raw} (count : elements.length ≠ 3) :
    Malformed elements (.invocationArity elements.length)
  | name {name arguments callId : Raw} {defect : Defect} (unread : Reader.text.ofRaw name = .error defect) :
    Malformed [name,arguments,callId] (.serialization defect)
  | arguments {name arguments callId : Raw} {text : String} (named : Reader.text.ofRaw name = .ok text)
    (noObject : arguments.isObject = false) : Malformed [name,arguments,callId] .argumentsNotObject
  | callId {name arguments callId : Raw} {text : String} {defect : Defect}
    (named : Reader.text.ofRaw name = .ok text) (object : arguments.isObject)
    (unread : Reader.text.ofRaw callId = .error defect) :
    Malformed [name,arguments,callId] (.serialization defect)

theorem ofElements_eq_ok_iff {elements : List Raw} {triplet : Triplet} :
    ofElements elements = .ok triplet ↔ Spelled elements triplet := by
  constructor
  · intro made
    unfold ofElements at made
    split at made
    next name arguments callId =>
      obtain ⟨text,named,made⟩ := bind_eq_ok_iff.mp made
      split at made
      next object =>
        obtain ⟨id,identified,made⟩ := bind_eq_ok_iff.mp made
        cases made
        exact ⟨name,callId,rfl,mapError_eq_ok_iff.mp named,mapError_eq_ok_iff.mp identified⟩
      next => contradiction
    next => contradiction
  · obtain ⟨text,arguments,id,object⟩ := triplet
    rintro ⟨name,callId,rfl,named,identified⟩
    simp [ofElements,named,identified,object]

theorem ofElements_eq_error_iff {elements : List Raw} {error : Error} :
    ofElements elements = .error error ↔ Malformed elements error := by
  constructor
  · intro failed
    unfold ofElements at failed
    split at failed
    next name arguments callId =>
      rcases bind_eq_error_iff.mp failed with unnamed | ⟨text,named,failed⟩
      · obtain ⟨defect,unread,rfl⟩ := mapError_eq_error_iff.mp unnamed
        exact .name unread
      · replace named := mapError_eq_ok_iff.mp named
        split at failed
        next object =>
          rcases bind_eq_error_iff.mp failed with unidentified | ⟨id,_,failed⟩
          · obtain ⟨defect,unread,rfl⟩ := mapError_eq_error_iff.mp unidentified
            exact .callId named object unread
          · contradiction
        next noObject =>
          cases failed
          exact .arguments named (by simpa using noObject)
    next other =>
      cases failed
      refine .arity fun three => ?_
      obtain ⟨name,arguments,callId,rfl⟩ := List.length_eq_three.mp three
      exact other name arguments callId rfl
  · intro fault
    cases fault with
    | arity count =>
      unfold ofElements
      split
      · contradiction
      · rfl
    | name unread => simp [ofElements,unread]
    | arguments named noObject => simp [ofElements,named,noObject]; rfl
    | callId named object unread => simp [ofElements,named,object,unread]

end Triplet

/-- The result of a list of calls, each given by its elements: `Decodes` and `Refuses`
say what becomes of a triplet that is well formed. -/
inductive Phases {C : Type} (Decodes : Triplet → C → Prop) (Refuses : Triplet → Error → Prop)
    (calls : List (List Raw)) : Except Error (List C) → Prop where
  | malformed {before after : List (List Raw)} {elements : List Raw} {error : Error}
    (split : calls = before ++ elements :: after)
    (wellFormed : ∀ earlier ∈ before, ∃ triplet, Triplet.Spelled earlier triplet)
    (fault : Triplet.Malformed elements error) : Phases Decodes Refuses calls (.error error)
  | refused {before after : List Triplet} {triplet : Triplet} {error : Error}
    (wellFormed : List.Forall₂ Triplet.Spelled calls (before ++ triplet :: after))
    (decoded : ∀ earlier ∈ before, ∃ result, Decodes earlier result)
    (refusal : Refuses triplet error) : Phases Decodes Refuses calls (.error error)
  | complete {triplets : List Triplet} {results : List C}
    (wellFormed : List.Forall₂ Triplet.Spelled calls triplets)
    (decoded : List.Forall₂ Decodes triplets results) : Phases Decodes Refuses calls (.ok results)

theorem phases_iff {C : Type} {decode : Triplet → Except Error C} {Decodes : Triplet → C → Prop}
    {Refuses : Triplet → Error → Prop}
    (decodes : ∀ {triplet result}, decode triplet = .ok result ↔ Decodes triplet result)
    (refuses : ∀ {triplet error}, decode triplet = .error error ↔ Refuses triplet error)
    {calls : List (List Raw)} {outcome : Except Error (List C)} :
    (calls.mapM Triplet.ofElements >>= fun triplets => triplets.mapM decode) = outcome ↔
      Phases Decodes Refuses calls outcome := by
  have spelled {triplets} : calls.mapM Triplet.ofElements = .ok triplets ↔ List.Forall₂ Triplet.Spelled calls triplets :=
    mapM_eq_ok_iff_of Triplet.ofElements_eq_ok_iff
  have malformed {error} : calls.mapM Triplet.ofElements = .error error ↔ _ :=
    mapM_eq_error_iff_of Triplet.ofElements_eq_ok_iff Triplet.ofElements_eq_error_iff
  have understood {triplets results} : triplets.mapM decode = .ok results ↔ List.Forall₂ Decodes triplets results :=
    mapM_eq_ok_iff_of decodes
  have refused {triplets : List Triplet} {error} : triplets.mapM decode = .error error ↔ _ :=
    mapM_eq_error_iff_of decodes refuses
  constructor
  · intro found
    cases outcome with
    | ok results =>
      obtain ⟨triplets,wellFormed,decoded⟩ := bind_eq_ok_iff.mp found
      exact .complete (spelled.mp wellFormed) (understood.mp decoded)
    | error error =>
      rcases bind_eq_error_iff.mp found with failed | ⟨triplets,wellFormed,failed⟩
      · obtain ⟨before,elements,after,split,good,fault⟩ := malformed.mp failed
        exact .malformed split good fault
      · obtain ⟨before,triplet,after,rfl,good,refusal⟩ := refused.mp failed
        exact .refused (spelled.mp wellFormed) good refusal
  · intro phases
    cases phases with
    | malformed split wellFormed fault =>
      have failed := malformed.mpr ⟨_,_,_,split,wellFormed,fault⟩
      exact bind_eq_error_iff.mpr (.inl failed)
    | @refused before after triplet error wellFormed decoded refusal =>
      have failed := refused.mpr ⟨before,triplet,after,rfl,decoded,refusal⟩
      exact bind_eq_error_iff.mpr (.inr ⟨_,spelled.mpr wellFormed,failed⟩)
    | complete wellFormed decoded =>
      exact bind_eq_ok_iff.mpr ⟨_,spelled.mpr wellFormed,understood.mpr decoded⟩

namespace Registry
variable {A : Type}

/-- The decoder of the method gives the arguments; name and call id are those of the triplet. -/
def Decodes (registry : Registry A) (triplet : Triplet) (call : Invocation A) : Prop :=
  call.name = triplet.name ∧ call.callId = triplet.callId ∧
    ∃ decoder, registry.decoder? triplet.name = some decoder ∧ decoder triplet.arguments = .ok call.arguments

inductive Refuses (registry : Registry A) (triplet : Triplet) : Error → Prop where
  | unknown (missing : registry.decoder? triplet.name = none) : Refuses registry triplet (.unknownMethod triplet.name)
  | failed {decoder : Decoder A} {error : Error} (found : registry.decoder? triplet.name = some decoder)
    (failure : decoder triplet.arguments = .error error) : Refuses registry triplet error

theorem decodeCall_eq_ok_iff {registry : Registry A} {triplet : Triplet} {call : Invocation A} :
    registry.decodeCall triplet = .ok call ↔ registry.Decodes triplet call := by
  constructor
  · intro decoded
    obtain ⟨arguments,understood,same⟩ := bind_eq_ok_iff.mp decoded
    cases same
    unfold decodeArguments at understood
    split at understood
    · contradiction
    next decoder found => exact ⟨rfl,rfl,decoder,found,understood⟩
  · obtain ⟨name,callId,arguments⟩ := call
    rintro ⟨rfl,rfl,decoder,found,understood⟩
    simp [decodeCall,decodeArguments,found,understood]

theorem decodeCall_eq_error_iff {registry : Registry A} {triplet : Triplet} {error : Error} :
    registry.decodeCall triplet = .error error ↔ registry.Refuses triplet error := by
  unfold decodeCall decodeArguments
  cases found : registry.decoder? triplet.name with
  | none =>
    constructor
    · intro failed
      cases failed
      exact .unknown found
    · rintro (_ | ⟨present,_⟩)
      · rfl
      · simp [found] at present
  | some decoder =>
    constructor
    · intro failed
      rcases bind_eq_error_iff.mp failed with failure | ⟨_,_,impossible⟩
      · exact .failed found failure
      · contradiction
    · rintro (missing | ⟨present,failure⟩)
      · simp [found] at missing
      · cases Option.some.inj (found.symm.trans present)
        exact bind_eq_error_iff.mpr (.inl failure)

end Registry

theorem MethodError.callId_of_ofArguments {callId : String} {arguments : Raw} {error : MethodError}
    (decoded : MethodError.ofArguments callId arguments = .ok error) : error.callId = callId := by
  obtain ⟨bag,_,decoded⟩ := bind_eq_ok_iff.mp decoded
  obtain ⟨type,_,same⟩ := bind_eq_ok_iff.mp (mapError_eq_ok_iff.mp decoded)
  cases same
  rfl

namespace MethodResponse
variable {A : Type}

/-- Under the reserved name the built-in decoder of method errors is used, whatever
the registry holds. -/
inductive Decodes (registry : Registry A) (triplet : Triplet) : MethodResponse A → Prop where
  | failure {error : MethodError} (reserved : triplet.name = MethodError.reservedName)
    (identified : error.callId = triplet.callId)
    (decoded : MethodError.ofArguments triplet.callId triplet.arguments = .ok error) :
    Decodes registry triplet (.failure error)
  | success {result : Invocation A} (unreserved : triplet.name ≠ MethodError.reservedName)
    (decoded : registry.Decodes triplet result) : Decodes registry triplet (.success result)

inductive Refuses (registry : Registry A) (triplet : Triplet) : Error → Prop where
  | failure {error : Error} (reserved : triplet.name = MethodError.reservedName)
    (failed : MethodError.ofArguments triplet.callId triplet.arguments = .error error) :
    Refuses registry triplet error
  | success {error : Error} (unreserved : triplet.name ≠ MethodError.reservedName)
    (refused : registry.Refuses triplet error) : Refuses registry triplet error

theorem ofTriplet_eq_ok_iff {registry : Registry A} {triplet : Triplet} {entry : MethodResponse A} :
    ofTriplet registry triplet = .ok entry ↔ Decodes registry triplet entry := by
  unfold ofTriplet
  split
  next reserved =>
    rw [map_eq_ok_iff]
    constructor
    · rintro ⟨error,decoded,rfl⟩
      exact .failure reserved (MethodError.callId_of_ofArguments decoded) decoded
    · rintro (⟨_,_,decoded⟩ | ⟨unreserved,_⟩)
      · exact ⟨_,decoded,rfl⟩
      · contradiction
  next unreserved =>
    rw [map_eq_ok_iff]
    constructor
    · rintro ⟨result,decoded,rfl⟩
      exact .success unreserved (Registry.decodeCall_eq_ok_iff.mp decoded)
    · rintro (⟨reserved,_,_⟩ | ⟨_,decoded⟩)
      · contradiction
      · exact ⟨_,Registry.decodeCall_eq_ok_iff.mpr decoded,rfl⟩

theorem ofTriplet_eq_error_iff {registry : Registry A} {triplet : Triplet} {error : Error} :
    ofTriplet registry triplet = .error error ↔ Refuses registry triplet error := by
  unfold ofTriplet
  split
  next reserved =>
    rw [map_eq_error_iff]
    constructor
    · exact .failure reserved
    · rintro (⟨_,failed⟩ | ⟨unreserved,_⟩)
      · exact failed
      · contradiction
  next unreserved =>
    rw [map_eq_error_iff]
    constructor
    · exact fun failed => .success unreserved (Registry.decodeCall_eq_error_iff.mp failed)
    · rintro (⟨reserved,_⟩ | ⟨_,refused⟩)
      · contradiction
      · exact Registry.decodeCall_eq_error_iff.mpr refused

end MethodResponse
end Jmap
