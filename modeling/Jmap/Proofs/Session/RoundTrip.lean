import Jmap.Proofs.Session

/-! From a text to a session and back: the capabilities are handed on as they were
received, and the limits that are decoded beside them can be decoded again. -/
namespace Jmap
open Json Outcome

namespace Session

/-- The capabilities of a session and of its accounts are the values of what stands
in the text for them, read with what the depth limit leaves there, and empty where
nothing does. -/
structure Received (root : Node) (session : Session) : Prop where
  capabilities : Reader.value.Gives 126 (.ofMap .empty) (root.field? "capabilities" 0) (.ofMap session.capabilities)
  accounts : ∀ key, match (root.field? "accounts" 1).bind (Node.entry? key) with
    | none => session.accounts.find? key = none
    | some node => ∃ account, session.accounts.find? key = some account ∧
      Reader.value.Gives 124 (.ofMap .empty) (node.field? "accountCapabilities" 3) (.ofMap account.accountCapabilities)

theorem ReadFrom.received {root : Node} {session : Session} (source : ReadFrom 126 root session) :
    session.Received root where
  capabilities := source.capabilities.value
  accounts key := by
    have found := source.accounts.entries key
    cases entry : (root.field? "accounts" 1).bind (Node.entry? key) with
    | none => rwa [entry] at found
    | some node =>
      rw [entry] at found
      obtain ⟨_,account,held,read⟩ := found
      obtain ⟨_,⟨⟩,capabilities⟩ := Reader.of_record Account.isField_capabilities read
      exact ⟨account,held,capabilities.value⟩

/-- The floating-point numbers among the untyped values of a session. -/
def doubles (session : Session) : List Binary64 :=
  (Value.ofMap session.capabilities).doubles ++
    session.accounts.entries.flatMap fun entry => (Value.ofMap entry.2.accountCapabilities).doubles

theorem ReadFrom.reader_written {root : Node} {session : Session} (source : ReadFrom 126 root session)
    (survive : ∀ x ∈ session.doubles, x.Survives) : reader.ofText session.written.text = .ok session := by
  have capabilities := source.capabilities.sortedMap_toNode (fun _ member => member) fun x found =>
    survive x (List.mem_append_left _ found)
  have accounts : ∀ entry ∈ session.accounts.entries,
      Reader.value.sortedMap 124 (Value.ofMap entry.2.accountCapabilities).toNode = .ok entry.2.accountCapabilities := by
    intro entry member
    obtain ⟨_,node,_,read⟩ := source.accounts.of_mem member
    obtain ⟨_,⟨⟩,gave⟩ := Reader.of_record Account.isField_capabilities read
    refine gave.sortedMap_toNode (fun _ member => member) fun x found => survive x ?_
    exact List.mem_append_right _ (List.mem_flatMap.mpr ⟨entry,member,found⟩)
  rw [Reader.ofText_text]
  exact reader_encode source.core capabilities accounts (encode_eq source.isValid)

/-- A session that a text is decoded to has its core limits from its capabilities,
and these as received. It is written with all its fields, and what is written is
decoded to it again. Without core limits nothing is decoded. -/
theorem decoded_session (text : String) :
    let root := (Document.ofText text).root
    (∀ session, reader.ofText text = .ok session →
      (∃ value, session.capabilities.find? coreUri = some value ∧
        CoreCapability.reader.ofValue value = .ok session.core) ∧
      session.Received root ∧ encode session = .ok session.written ∧
      ((∀ x ∈ session.doubles, x.Survives) → reader.ofText session.written.text = .ok session)) ∧
    ((∀ capabilities value, Reader.value.Gives 126 (.ofMap .empty) (root.field? "capabilities" 0) (.ofMap capabilities) →
        capabilities.find? coreUri = some value → ∃ defect, CoreCapability.reader.ofValue value = .error defect) →
      ∃ defect, reader.ofText text = .error defect) := by
  intro root
  have source : ∀ session, reader.ofText text = .ok session → ReadFrom 126 root session :=
    fun session read => of_read (Reader.root_of_ofText read)
  constructor
  · intro session read
    have known := source session read
    exact ⟨known.core,known.received,encode_eq known.isValid,known.reader_written⟩
  · intro refused
    cases outcome : reader.ofText text with
    | error defect => exact ⟨defect,rfl⟩
    | ok session =>
      have known := source session outcome
      obtain ⟨value,found,decoded⟩ := known.core
      obtain ⟨defect,failed⟩ := refused session.capabilities value known.received.capabilities found
      rw [decoded] at failed
      contradiction

theorem decoded_session_positional :
    let half : Binary64 := ⟨false,⟨1022 * leadingBit,by decide⟩⟩
    let text := "[\x7b\"x\":1,\"urn:ietf:params:jmap:core\":[3],\"x\":0.5\x7d,\x7b\"A1\":[\"n\",true,false,\x7b\"y\":[]\x7d]\x7d,\x7b\"x\":\"A1\"\x7d]"
    ∃ session, reader.ofText text = .ok session ∧ session.core.maxSizeUpload = ⟨3⟩ ∧ session.doubles = [half] ∧
      session.Received (Document.ofText text).root ∧ reader.ofText session.written.text = .ok session := by
  intro half text
  have survives : half.Survives := by decide
  have checked : (reader.ofText text).toOption.any fun session =>
      session.core.maxSizeUpload = ⟨3⟩ && session.doubles = [half] := by decide +kernel
  obtain ⟨session,read,shown⟩ := exists_ok_of_any checked
  simp only [Bool.and_eq_true,decide_eq_true_eq] at shown
  obtain ⟨_,received,_,rereads⟩ := (decoded_session text).1 session read
  exact ⟨session,read,shown.1,shown.2,received,rereads (by simpa [shown.2] using survives)⟩

end Session
end Jmap
