import Jmap.Proofs.Constrained
import Jmap.Proofs.Json.Values
import Jmap.Session

/-! Sessions as they are read and written: which of their parts are constrained, what
a session that was read has taken from the text, and that its parts are read back. -/
namespace Jmap
open Json Outcome

namespace Collation

theorem name_ofName (name : String) : (ofName name).name = name := by
  unfold ofName
  cases found : all.find? (·.name == name) with
  | none => rfl
  | some known => simpa using List.find?_some found

theorem ofName_of_read {room : Nat} {node : Node} {collation : Collation} (read : reader room node = .ok collation) :
    ofName collation.name = collation := by
  obtain ⟨name,_,rfl⟩ := map_eq_ok_iff.mp read
  rw [name_ofName]

theorem reader_encode {collation : Collation} {raw : Raw} (canonical : ofName collation.name = collation)
    (encoded : encode collation = .ok raw) (room : Nat) : reader room raw.node = .ok collation := by
  cases encoded
  rw [reader,Reader.map,Reader.text_ofString,map_ok,canonical]

end Collation

namespace CoreCapability

def constrained (core : CoreCapability) : List Constrained :=
  [.integer core.maxSizeUpload,.integer core.maxConcurrentUpload,.integer core.maxSizeRequest,
   .integer core.maxConcurrentRequests,.integer core.maxCallsInRequest,.integer core.maxObjectsInGet,
   .integer core.maxObjectsInSet]

theorem guarded (core : CoreCapability) : Guarded .violation (encode core) core.constrained := by
  have names : Guarded .violation (encode core.collationAlgorithms) [] := by
    obtain ⟨raws,walked⟩ := exists_mapM fun (name : Collation) (_ : name ∈ core.collationAlgorithms) =>
      (⟨_,rfl⟩ : ∃ raw, encode name = .ok raw)
    have written : encode core.collationAlgorithms = .ok (.ofList raws) := by
      change Raw.ofList <$> core.collationAlgorithms.mapM encode = _
      rw [walked,map_ok]
    exact written ▸ Guarded.ok _
  have written := Guarded.member "maxSizeUpload" core.maxSizeUpload.guarded
    (.member "maxConcurrentUpload" core.maxConcurrentUpload.guarded
    (.member "maxSizeRequest" core.maxSizeRequest.guarded
    (.member "maxConcurrentRequests" core.maxConcurrentRequests.guarded
    (.member "maxCallsInRequest" core.maxCallsInRequest.guarded
    (.member "maxObjectsInGet" core.maxObjectsInGet.guarded
    (.member "maxObjectsInSet" core.maxObjectsInSet.guarded
    (.member "collationAlgorithms" names .noMembers)))))))
  exact written

/-- Limits are read within their range, and names of collations to what the table has for them. -/
theorem of_read {room : Nat} {node : Node} {core : CoreCapability} (read : reader room node = .ok core) :
    (∀ part ∈ core.constrained, part.isValid) ∧
      ∀ collation ∈ core.collationAlgorithms, Collation.ofName collation.name = collation := by
  obtain ⟨inner,seen,_,made,_⟩ := Reader.made_of_record read
  apply made.invariant
  · exact ⟨by decide,by simp [blank]⟩
  intro field member node change changed record kept
  simp only [fields,List.mem_cons,List.not_mem_nil,or_false] at member
  rcases member with rfl | rfl | rfl | rfl | rfl | rfl | rfl | rfl
  iterate 7
    · obtain ⟨n,inside,rfl⟩ := map_eq_ok_iff.mp changed
      have valid := UnsignedInt.isValid_of_read inside
      simp_all [constrained,Constrained.isValid]
  · obtain ⟨names,inside,rfl⟩ := map_eq_ok_iff.mp changed
    obtain ⟨nodes,depth,_,_,related⟩ := Reader.of_list inside
    refine ⟨kept.1,fun collation listed => ?_⟩
    obtain ⟨part,_,read⟩ := exists_left_of_mem related listed
    exact Collation.ofName_of_read read

theorem reader_encode {core : CoreCapability} {raw : Raw}
    (canonical : ∀ collation ∈ core.collationAlgorithms, Collation.ofName collation.name = collation)
    (encoded : encode core = .ok raw) (room : Nat) : reader (room + 2) raw.node = .ok core := by
  refine Reader.record_encoded (by decide) ?_ encoded
  iterate 7 refine .of (fun _ part => UnsignedInt.reader_encode part (room + 1)) ?_
  refine .of (fun _ part => ?_) .nil
  exact Reader.list_encoded (fun name member _ written => Collation.reader_encode (canonical name member) written room) part

end CoreCapability

namespace Account

def written (account : Account) : Raw := .ofMembers
  [("name",.ofString account.name),("isPersonal",.ofBool account.isPersonal),("isReadOnly",.ofBool account.isReadOnly),
   ("accountCapabilities",.ofValue (.ofMap account.accountCapabilities))]

theorem encode_eq (account : Account) : encode account = .ok account.written := by
  have name : encode account.name = .ok (.ofString account.name) := rfl
  have isPersonal : encode account.isPersonal = .ok (.ofBool account.isPersonal) := rfl
  have isReadOnly : encode account.isReadOnly = .ok (.ofBool account.isReadOnly) := rfl
  change encodeMembers _ = _
  simp [encodeMembers,name,isPersonal,isReadOnly,encode_values,written]

theorem guarded (account : Account) : Guarded .violation (encode account) [] := account.encode_eq ▸ Guarded.ok _

theorem isField_capabilities :
    IsField fields "accountCapabilities" 3 (.sortedMap .value) Account.accountCapabilities := by
  refine IsField.at rfl (fun _ _ => rfl) (by decide) ?_
  simp only [fields,List.eraseIdx,List.forall_mem_cons]
  refine ⟨?_,?_,?_,by simp⟩ <;> exact fun _ _ _ => RecordField.keeps_of fun _ _ => rfl

theorem reader_encode {account : Account} {raw : Raw} {room : Nat}
    (capabilities : Reader.value.sortedMap room (Value.ofMap account.accountCapabilities).toNode =
      .ok account.accountCapabilities)
    (encoded : encode account = .ok raw) : reader (room + 1) raw.node = .ok account := by
  refine Reader.record_encoded (by decide) ?_ encoded
  refine .of (fun _ part => text_encode part room) ?_
  refine .of (fun _ part => bool_encode part room) ?_
  refine .of (fun _ part => bool_encode part room) ?_
  refine .of (fun part same => ?_) .nil
  rw [encode_values] at same
  cases same
  exact capabilities

end Account

namespace Session

def constrained (session : Session) : List Constrained :=
  (session.accounts.entries.map fun entry => .identifier ⟨entry.1⟩) ++
    session.primaryAccounts.entries.map fun entry => .identifier entry.2

theorem guarded (session : Session) : Guarded .violation (encode session) session.constrained := by
  have text (content : String) : Guarded .violation (encode content) [] := Guarded.ok _
  have capabilities : Guarded .violation (encode session.capabilities) [] := encode_values session.capabilities ▸ Guarded.ok _
  have accounts := Id.guarded_encodeMap (fun _ => []) fun entry (_ : entry ∈ session.accounts.entries) => entry.2.guarded
  have primary : Guarded .violation (encode session.primaryAccounts)
      (session.primaryAccounts.entries.flatMap fun entry => [.identifier entry.2]) := by
    rw [encode_sortedMap]
    exact Guarded.entries fun entry _ => entry.2.guarded
  have written := Guarded.member "capabilities" capabilities (.member "accounts" accounts
    (.member "primaryAccounts" primary (.member "username" (text session.username)
    (.member "apiUrl" (text session.apiUrl) (.member "downloadUrl" (text session.downloadUrl)
    (.member "uploadUrl" (text session.uploadUrl) (.member "eventSourceUrl" (text session.eventSourceUrl)
    (.member "state" (text session.state) .noMembers))))))))
  rw [constrained,List.map_eq_flatMap,List.map_eq_flatMap]
  simp only [List.nil_append,List.append_nil] at written
  exact written

theorem withCore_eq_ok_iff {received session : Session} : received.withCore = .ok session ↔
    ∃ value core, received.capabilities.find? coreUri = some value ∧ CoreCapability.reader.ofValue value = .ok core ∧
      {received with core} = session := by
  unfold withCore
  cases received.capabilities.find? coreUri with
  | none => simp
  | some value => simp [bind_eq_ok_iff,mapError_eq_ok_iff]

theorem isField_capabilities : IsField fields "capabilities" 0 (.sortedMap .value) capabilities := by
  refine IsField.at rfl (fun _ _ => rfl) (by decide) ?_
  simp only [fields,List.eraseIdx,List.forall_mem_cons]
  refine ⟨?_,?_,?_,?_,?_,?_,?_,?_,by simp⟩ <;> exact fun _ _ _ => RecordField.keeps_of fun _ _ => rfl

theorem isField_accounts : IsField fields "accounts" 1 (Id.mapReader Account.reader) accounts := by
  refine IsField.at rfl (fun _ _ => rfl) (by decide) ?_
  simp only [fields,List.eraseIdx,List.forall_mem_cons]
  refine ⟨?_,?_,?_,?_,?_,?_,?_,?_,by simp⟩ <;> exact fun _ _ _ => RecordField.keeps_of fun _ _ => rfl

theorem isField_primaryAccounts : IsField fields "primaryAccounts" 2 (.sortedMap Id.reader) primaryAccounts := by
  refine IsField.at rfl (fun _ _ => rfl) (by decide) ?_
  simp only [fields,List.eraseIdx,List.forall_mem_cons]
  refine ⟨?_,?_,?_,?_,?_,?_,?_,?_,by simp⟩ <;> exact fun _ _ _ => RecordField.keeps_of fun _ _ => rfl

/-- What a session that was read has from the parts of its tree. -/
structure ReadFrom (room : Nat) (node : Node) (session : Session) : Prop where
  capabilities : (Reader.sortedMap Reader.value).Gives room .empty (node.field? "capabilities" 0) session.capabilities
  accounts : (Id.mapReader Account.reader).Gives room .empty (node.field? "accounts" 1) session.accounts
  primaryAccounts : (Reader.sortedMap Id.reader).Gives room .empty (node.field? "primaryAccounts" 2) session.primaryAccounts
  core : ∃ value, session.capabilities.find? coreUri = some value ∧ CoreCapability.reader.ofValue value = .ok session.core

theorem of_read {room : Nat} {node : Node} {session : Session} (read : reader (room + 1) node = .ok session) :
    ReadFrom room node session := by
  obtain ⟨received,recorded,cored⟩ := bind_eq_ok_iff.mp read
  obtain ⟨value,core,found,decoded,rfl⟩ := withCore_eq_ok_iff.mp cored
  obtain ⟨_,⟨⟩,capabilities⟩ := Reader.of_record isField_capabilities recorded
  obtain ⟨_,⟨⟩,accounts⟩ := Reader.of_record isField_accounts recorded
  obtain ⟨_,⟨⟩,primaryAccounts⟩ := Reader.of_record isField_primaryAccounts recorded
  exact ⟨capabilities,accounts,primaryAccounts,value,found,decoded⟩

theorem ReadFrom.isValid {room : Nat} {node : Node} {session : Session} (source : ReadFrom (room + 1) node session) :
    ∀ part ∈ session.constrained, part.isValid := by
  intro part member
  rcases List.mem_append.mp member with account | primary
  · obtain ⟨entry,inside,rfl⟩ := List.mem_map.mp account
    exact Id.isValid_of_checkKey (source.accounts.of_mem inside).1
  · obtain ⟨entry,inside,rfl⟩ := List.mem_map.mp primary
    obtain ⟨_,node,_,read⟩ := source.primaryAccounts.of_mem inside
    exact Id.isValid_of_read read

/-- What is written for a session whose identifiers are valid. -/
def written (session : Session) : Raw := .ofMembers
  [("capabilities",.ofValue (.ofMap session.capabilities)),
   ("accounts",.ofMembers (session.accounts.entries.map fun entry => (entry.1,entry.2.written))),
   ("primaryAccounts",.ofMembers (session.primaryAccounts.entries.map fun entry => (entry.1,.ofString entry.2.text))),
   ("username",.ofString session.username),("apiUrl",.ofString session.apiUrl),
   ("downloadUrl",.ofString session.downloadUrl),("uploadUrl",.ofString session.uploadUrl),
   ("eventSourceUrl",.ofString session.eventSourceUrl),("state",.ofString session.state)]

theorem encode_eq {session : Session} (valid : ∀ part ∈ session.constrained, part.isValid) :
    encode session = .ok session.written := by
  have accounts : Id.encodeMap session.accounts =
      .ok (.ofMembers (session.accounts.entries.map fun entry => (entry.1,entry.2.written))) := by
    refine encodeMembers_map fun entry member => ?_
    have key : Id.isValid ⟨entry.1⟩ :=
      valid (.identifier ⟨entry.1⟩) (List.mem_append_left _ (List.mem_map.mpr ⟨entry,member,rfl⟩))
    rw [Id.checkKey_eq_ok key,ok_bind,entry.2.encode_eq]
  have primary : encode session.primaryAccounts =
      .ok (.ofMembers (session.primaryAccounts.entries.map fun entry => (entry.1,.ofString entry.2.text))) := by
    rw [encode_sortedMap]
    refine encodeMembers_map fun entry member => Id.encode_eq_ok_iff.mpr ⟨?_,rfl⟩
    exact valid (.identifier entry.2) (List.mem_append_right _ (List.mem_map_of_mem member))
  have text (content : String) : encode content = .ok (.ofString content) := rfl
  change encodeMembers _ = _
  simp [encodeMembers,encode_values,accounts,primary,text,written]

theorem reader_encode {session : Session} {raw : Raw} {room : Nat}
    (core : ∃ value, session.capabilities.find? coreUri = some value ∧ CoreCapability.reader.ofValue value = .ok session.core)
    (capabilities : Reader.value.sortedMap (room + 2) (Value.ofMap session.capabilities).toNode = .ok session.capabilities)
    (accounts : ∀ entry ∈ session.accounts.entries,
      Reader.value.sortedMap room (Value.ofMap entry.2.accountCapabilities).toNode = .ok entry.2.accountCapabilities)
    (encoded : encode session = .ok raw) : reader (room + 3) raw.node = .ok session := by
  have first {part : Raw} (same : encode session.capabilities = .ok part) :
      Reader.value.sortedMap (room + 2) part.node = .ok session.capabilities := by
    rw [encode_values] at same
    cases same
    exact capabilities
  have second {part : Raw} (same : Id.encodeMap session.accounts = .ok part) :
      Id.mapReader Account.reader (room + 2) part.node = .ok session.accounts :=
    Id.mapReader_encodeMap (fun entry member _ written => Account.reader_encode (accounts entry member) written) same
  have third {part : Raw} (same : encode session.primaryAccounts = .ok part) :
      Reader.sortedMap Id.reader (room + 2) part.node = .ok session.primaryAccounts := by
    rw [encode_sortedMap] at same
    exact Reader.checkedMap_encoded (fun entry _ _ written => ⟨rfl,Id.reader_encode written _⟩) same
  have recorded : Reader.record fields blank (room + 3) raw.node = .ok {session with core := blank.core} := by
    refine Reader.record_encoded (by decide) ?_ encoded
    refine .of (fun _ => first) (.of (fun _ => second) (.of (fun _ => third) ?_))
    iterate 5 refine .of (fun _ part => text_encode part (room + 2)) ?_
    exact .of (fun _ part => text_encode part (room + 2)) .nil
  obtain ⟨value,found,decoded⟩ := core
  rw [reader,Reader.andThen,recorded,ok_bind]
  exact withCore_eq_ok_iff.mpr ⟨value,session.core,found,decoded,rfl⟩

end Session
end Jmap
