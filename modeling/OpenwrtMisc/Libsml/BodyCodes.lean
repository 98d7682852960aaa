import OpenwrtMisc.Libsml.Bodies
import OpenwrtMisc.Libsml.ListCodes

/-! The bodies of messages as they are written, and which of them are read back. -/

namespace OpenwrtMisc.Libsml

/-- `sml_open_request_write`. -/
def smlOpenRequestWrite (msg : SmlOpenRequest) : Writer Unit := do
  smlBufSetTypeAndLength smlTypeList 7
  smlOctetStringWrite msg.codepage
  smlOctetStringWrite msg.clientId
  smlOctetStringWrite msg.reqFileId
  smlOctetStringWrite msg.serverId
  smlOctetStringWrite msg.username
  smlOctetStringWrite msg.password
  smlU8Write msg.smlVersion

/-- `sml_open_response_write`. -/
def smlOpenResponseWrite (msg : SmlOpenResponse) : Writer Unit := do
  smlBufSetTypeAndLength smlTypeList 6
  smlOctetStringWrite msg.codepage
  smlOctetStringWrite msg.clientId
  smlOctetStringWrite msg.reqFileId
  smlOctetStringWrite msg.serverId
  smlTimeWrite msg.refTime
  smlU8Write msg.smlVersion

/-- `sml_close_request_write` and `sml_close_response_write`. -/
def smlCloseRequestWrite (msg : SmlClose) : Writer Unit := do
  smlBufSetTypeAndLength smlTypeList 1
  smlOctetStringWrite msg.globalSignature

def smlCloseResponseWrite (msg : SmlClose) : Writer Unit := do
  smlBufSetTypeAndLength smlTypeList 1
  smlOctetStringWrite msg.globalSignature

/-- The list of objects of a request, whose last entry is counted but not written. -/
def objectListWrite : List (Option OctetString) → Writer Unit
  | [] => smlBufOptionalWrite
  | list => do
    smlBufSetTypeAndLength smlTypeList list.length.toUInt32
    list.dropLast.forM smlOctetStringWrite

/-- `sml_get_profile_pack_request_write`, which is `sml_get_profile_list_request_write` too. -/
def smlGetProfilePackRequestWrite (msg : SmlGetProfilePackRequest) : Writer Unit := do
  smlBufSetTypeAndLength smlTypeList 9
  smlOctetStringWrite msg.serverId
  smlOctetStringWrite msg.username
  smlOctetStringWrite msg.password
  smlBooleanWrite msg.withRawdata
  smlTimeWrite msg.beginTime
  smlTimeWrite msg.endTime
  smlTreePathWrite msg.parameterTreePath
  objectListWrite msg.objectList
  smlTreeWrite msg.dasDetails

/-- `sml_prof_obj_header_entry_write`. -/
def smlProfObjHeaderEntryWrite (entry : SmlProfObjHeaderEntry) : Writer Unit := do
  smlBufSetTypeAndLength smlTypeList 3
  smlOctetStringWrite entry.objName
  smlUnitWrite entry.unit
  smlI8Write entry.scaler

/-- `sml_value_entry_write`. -/
def smlValueEntryWrite (entry : SmlValueEntry) : Writer Unit := do
  smlBufSetTypeAndLength smlTypeList 2
  smlValueWrite entry.value
  smlOctetStringWrite entry.valueSignature

/-- `sml_prof_obj_period_entry_write`. -/
def smlProfObjPeriodEntryWrite (entry : SmlProfObjPeriodEntry) : Writer Unit := do
  smlBufSetTypeAndLength smlTypeList 4
  smlTimeWrite entry.valTime
  smlU64Write entry.status
  smlSequenceWrite (written smlValueEntryWrite) entry.valueList
  smlOctetStringWrite entry.periodSignature

/-- `sml_get_profile_pack_response_write`. -/
def smlGetProfilePackResponseWrite (msg : SmlGetProfilePackResponse) : Writer Unit := do
  smlBufSetTypeAndLength smlTypeList 8
  smlOctetStringWrite msg.serverId
  smlTimeWrite msg.actTime
  smlU32Write msg.regPeriod
  smlTreePathWrite msg.parameterTreePath
  smlSequenceWrite (written smlProfObjHeaderEntryWrite) msg.headerList
  smlSequenceWrite (written smlProfObjPeriodEntryWrite) msg.periodList
  smlOctetStringWrite msg.rawdata
  smlOctetStringWrite msg.profileSignature

/-- `sml_get_profile_list_response_write`. -/
def smlGetProfileListResponseWrite (msg : SmlGetProfileListResponse) : Writer Unit := do
  smlBufSetTypeAndLength smlTypeList 9
  smlOctetStringWrite msg.serverId
  smlTimeWrite msg.actTime
  smlU32Write msg.regPeriod
  smlTreePathWrite msg.parameterTreePath
  smlTimeWrite msg.valTime
  smlU64Write msg.status
  smlSequenceWrite smlPeriodEntryWrite msg.periodList
  smlOctetStringWrite msg.rawdata
  smlOctetStringWrite msg.periodSignature

/-- `sml_get_proc_parameter_request_write`. -/
def smlGetProcParameterRequestWrite (msg : SmlGetProcParameterRequest) : Writer Unit := do
  smlBufSetTypeAndLength smlTypeList 5
  smlOctetStringWrite msg.serverId
  smlOctetStringWrite msg.username
  smlOctetStringWrite msg.password
  smlTreePathWrite msg.parameterTreePath
  smlOctetStringWrite msg.attr

/-- `sml_get_proc_parameter_response_write`. -/
def smlGetProcParameterResponseWrite (msg : SmlGetProcParameterResponse) : Writer Unit := do
  smlBufSetTypeAndLength smlTypeList 3
  smlOctetStringWrite msg.serverId
  smlTreePathWrite msg.parameterTreePath
  smlTreeWrite msg.parameterTree

/-- `sml_set_proc_parameter_request_write`. -/
def smlSetProcParameterRequestWrite (msg : SmlSetProcParameterRequest) : Writer Unit := do
  smlBufSetTypeAndLength smlTypeList 5
  smlOctetStringWrite msg.serverId
  smlOctetStringWrite msg.username
  smlOctetStringWrite msg.password
  smlTreePathWrite msg.parameterTreePath
  smlTreeWrite msg.parameterTree

/-- `sml_get_list_request_write`. -/
def smlGetListRequestWrite (msg : SmlGetListRequest) : Writer Unit := do
  smlBufSetTypeAndLength smlTypeList 5
  smlOctetStringWrite msg.clientId
  smlOctetStringWrite msg.serverId
  smlOctetStringWrite msg.username
  smlOctetStringWrite msg.password
  smlOctetStringWrite msg.listName

/-- `sml_get_list_response_write`. -/
def smlGetListResponseWrite (msg : SmlGetListResponse) : Writer Unit := do
  smlBufSetTypeAndLength smlTypeList 7
  smlOctetStringWrite msg.clientId
  smlOctetStringWrite msg.serverId
  smlOctetStringWrite msg.listName
  smlTimeWrite msg.actSensorTime
  smlListWrite msg.valList
  smlOctetStringWrite msg.listSignature
  smlTimeWrite msg.actGatewayTime

/-- `sml_attention_response_write`. -/
def smlAttentionResponseWrite (msg : SmlAttentionResponse) : Writer Unit := do
  smlBufSetTypeAndLength smlTypeList 4
  smlOctetStringWrite msg.serverId
  smlOctetStringWrite msg.attentionNumber
  smlOctetStringWrite msg.attentionMessage
  smlTreeWrite msg.attentionDetails

section Kept

/-- Strings that are read back where they are given. -/
def StringsKept (strs : List (Option OctetString)) : Prop :=
  ∀ str ∈ strs, ∀ given ∈ str, StringKept given

/-- Times that are read back where they are given. -/
def TimesKept (times : List (Option SmlTime)) : Prop :=
  ∀ time ∈ times, ∀ given ∈ time, SmlTime.Kept given

/-- The bodies that are read back: each of their fields is. -/
def SmlOpenRequest.Kept (msg : SmlOpenRequest) : Prop :=
  StringsKept [msg.codepage, msg.clientId, msg.reqFileId, msg.serverId, msg.username, msg.password]

def SmlOpenResponse.Kept (msg : SmlOpenResponse) : Prop :=
  StringsKept [msg.codepage, msg.clientId, msg.reqFileId, msg.serverId] ∧ TimesKept [msg.refTime]

def SmlClose.Kept (msg : SmlClose) : Prop := StringsKept [msg.globalSignature]

structure SmlGetProfilePackRequest.Kept (msg : SmlGetProfilePackRequest) : Prop where
  strings : StringsKept [msg.serverId, msg.username, msg.password]
  withRawdata : ∀ given ∈ msg.withRawdata, BooleanKept given
  times : TimesKept [msg.beginTime, msg.endTime]
  path : ∀ given ∈ msg.parameterTreePath, PathKept given
  /-- The last object is lost. -/
  objects : msg.objectList = []
  details : ∀ given ∈ msg.dasDetails, SmlTree.Kept given

def SmlProfObjHeaderEntry.Kept (entry : SmlProfObjHeaderEntry) : Prop :=
  StringsKept [entry.objName]

def SmlValueEntry.Kept (entry : SmlValueEntry) : Prop :=
  (∀ given ∈ entry.value, SmlValue.Kept given) ∧ StringsKept [entry.valueSignature]

/-- An entry of a sequence that is there, and read back. -/
def Given {α : Type} (P : α → Prop) (entry : Option α) : Prop := ∃ given ∈ entry, P given

structure SmlProfObjPeriodEntry.Kept (entry : SmlProfObjPeriodEntry) : Prop where
  times : TimesKept [entry.valTime]
  values : SequenceKept (Given SmlValueEntry.Kept) entry.valueList
  strings : StringsKept [entry.periodSignature]

structure SmlGetProfilePackResponse.Kept (msg : SmlGetProfilePackResponse) : Prop where
  strings : StringsKept [msg.serverId, msg.rawdata, msg.profileSignature]
  times : TimesKept [msg.actTime]
  path : ∀ given ∈ msg.parameterTreePath, PathKept given
  headers : SequenceKept (Given SmlProfObjHeaderEntry.Kept) msg.headerList
  periods : SequenceKept (Given SmlProfObjPeriodEntry.Kept) msg.periodList

structure SmlGetProfileListResponse.Kept (msg : SmlGetProfileListResponse) : Prop where
  strings : StringsKept [msg.serverId, msg.rawdata, msg.periodSignature]
  times : TimesKept [msg.actTime, msg.valTime]
  path : ∀ given ∈ msg.parameterTreePath, PathKept given
  /-- Periods may be skipped. -/
  periods : SequenceKept (fun period => ∀ given ∈ period, SmlPeriodEntry.Kept given) msg.periodList

def SmlGetProcParameterRequest.Kept (msg : SmlGetProcParameterRequest) : Prop :=
  StringsKept [msg.serverId, msg.username, msg.password, msg.attr] ∧
    ∀ given ∈ msg.parameterTreePath, PathKept given

structure SmlGetProcParameterResponse.Kept (msg : SmlGetProcParameterResponse) : Prop where
  strings : StringsKept [msg.serverId]
  path : ∀ given ∈ msg.parameterTreePath, PathKept given
  tree : ∀ given ∈ msg.parameterTree, SmlTree.Kept given

structure SmlSetProcParameterRequest.Kept (msg : SmlSetProcParameterRequest) : Prop where
  strings : StringsKept [msg.serverId, msg.username, msg.password]
  path : ∀ given ∈ msg.parameterTreePath, PathKept given
  tree : ∀ given ∈ msg.parameterTree, SmlTree.Kept given

def SmlGetListRequest.Kept (msg : SmlGetListRequest) : Prop :=
  StringsKept [msg.clientId, msg.serverId, msg.username, msg.password, msg.listName]

structure SmlGetListResponse.Kept (msg : SmlGetListResponse) : Prop where
  strings : StringsKept [msg.clientId, msg.serverId, msg.listName, msg.listSignature]
  times : TimesKept [msg.actSensorTime, msg.actGatewayTime]
  values : ListKept msg.valList

def SmlAttentionResponse.Kept (msg : SmlAttentionResponse) : Prop :=
  StringsKept [msg.serverId, msg.attentionNumber, msg.attentionMessage] ∧
    ∀ given ∈ msg.attentionDetails, SmlTree.Kept given

end Kept

section Carries

/-- An open request is carried when it is kept. -/
theorem carries_openRequest {msg : SmlOpenRequest} (kept : msg.Kept) :
    Carries (smlOpenRequestWrite msg) smlOpenRequestParse (some msg) := by
  have string := fun str here => carries_string (kept str here)
  -- Field by field, in the order of the source.
  exact Carries.listOf 7 (by decide) <| (string msg.codepage (by simp)).field <|
    (string msg.clientId (by simp)).field <| (string msg.reqFileId (by simp)).field <|
    (string msg.serverId (by simp)).field <| (string msg.username (by simp)).field <|
    (string msg.password (by simp)).field <| (carries_u8 msg.smlVersion).last rfl

/-- An open response is carried when it is kept. -/
theorem carries_openResponse {msg : SmlOpenResponse} (kept : msg.Kept) :
    Carries (smlOpenResponseWrite msg) smlOpenResponseParse (some msg) := by
  -- Field by field, in the order of the source.
  have string := fun str here => carries_string (kept.1 str here)
  have time := fun time here => carries_time (kept.2 time here)
  exact Carries.listOf 6 (by decide) <| (string msg.codepage (by simp)).field <|
    (string msg.clientId (by simp)).field <| (string msg.reqFileId (by simp)).field <|
    (string msg.serverId (by simp)).field <| (time msg.refTime (by simp)).field <|
    (carries_u8 msg.smlVersion).last rfl

/-- A close message, the request or the response, is carried when it is kept. -/
theorem carries_close {msg : SmlClose} (kept : msg.Kept) :
    Carries (smlCloseRequestWrite msg) smlCloseRequestParse (some msg) :=
  Carries.listOf 1 (by decide) <|
    (carries_string (kept msg.globalSignature (by simp))).last rfl

/-- A profile request is carried when it is kept. -/
theorem carries_getProfilePackRequest {msg : SmlGetProfilePackRequest} (kept : msg.Kept) :
    Carries (smlGetProfilePackRequestWrite msg) smlGetProfilePackRequestParse (some msg) := by
  -- The fields stand in the request in the order in which they are parsed.
  have string := fun str here => carries_string (kept.strings str here)
  have time := fun time here => carries_time (kept.times time here)
  refine Carries.listOf 9 (by decide) <| (string msg.serverId (by simp)).field <|
    (string msg.username (by simp)).field <| (string msg.password (by simp)).field <|
    (carries_boolean kept.withRawdata).field <| (time msg.beginTime (by simp)).field <|
    (time msg.endTime (by simp)).field <| (carries_path kept.path).field ?_
  -- The objects are read without a question for errors behind them.
  obtain ⟨more, wrote, read⟩ := carries_tree kept.details
  refine ⟨[smlOptionalSkipped] ++ (more ++ []), ?_, ?_⟩
  · rw [kept.objects, List.append_nil]
    exact (writes_put _).bind wrote
  · have objects : Reads objectListParse [smlOptionalSkipped] (some []) :=
      reads_skipped.bind (by exact .pure _)
    refine objects.bind (reads_field read ?_)
    rw [← kept.objects]
    exact .pure _

/-- An entry that is there is carried. -/
theorem carries_entry {α : Type} {P : α → Prop} {write : α → Writer Unit}
    {parse : Reader (Option α)} (each : ∀ entry, P entry → Carries (write entry) parse (some entry))
    (entry : Option α) (kept : Given P entry) : Carries (written write entry) parse entry := by
  -- An entry of a list cannot be missing.
  obtain ⟨given, rfl, holds⟩ := kept
  exact (each given holds).written

/-- An entry of the header of a profile pack is carried when it is kept. -/
theorem carries_profObjHeaderEntry {entry : SmlProfObjHeaderEntry} (kept : entry.Kept) :
    Carries (smlProfObjHeaderEntryWrite entry) smlProfObjHeaderEntryParse (some entry) :=
  Carries.listOf 3 (by decide) <| (carries_string (kept entry.objName (by simp))).field <|
    (carries_unit entry.unit).field <| (carries_i8 entry.scaler).last rfl

/-- A value with its signature is carried when it is kept. -/
theorem carries_valueEntry {entry : SmlValueEntry} (kept : entry.Kept) :
    Carries (smlValueEntryWrite entry) smlValueEntryParse (some entry) :=
  Carries.listOf 2 (by decide) <| (carries_value kept.1).field <|
    (carries_string (kept.2 entry.valueSignature (by simp))).last rfl

/-- A period of a profile pack is carried when it is kept. -/
theorem carries_profObjPeriodEntry {entry : SmlProfObjPeriodEntry} (kept : entry.Kept) :
    Carries (smlProfObjPeriodEntryWrite entry) smlProfObjPeriodEntryParse (some entry) :=
  Carries.listOf 4 (by decide) <| (carries_time (kept.times entry.valTime (by simp))).field <|
    (carries_u64 entry.status).field <|
    (carries_sequence (carries_entry fun _ => carries_valueEntry) kept.values).field <|
    (carries_string (kept.strings entry.periodSignature (by simp))).last rfl

/-- A profile pack is carried when it is kept. -/
theorem carries_getProfilePackResponse {msg : SmlGetProfilePackResponse} (kept : msg.Kept) :
    Carries (smlGetProfilePackResponseWrite msg) smlGetProfilePackResponseParse (some msg) := by
  -- Field by field, in the order of the source.
  have string := fun str here => carries_string (kept.strings str here)
  exact Carries.listOf 8 (by decide) <| (string msg.serverId (by simp)).field <|
    (carries_time (kept.times msg.actTime (by simp))).field <| (carries_u32 msg.regPeriod).field <|
    (carries_path kept.path).field <|
    (carries_sequence (carries_entry fun _ => carries_profObjHeaderEntry) kept.headers).field <|
    (carries_sequence (carries_entry fun _ => carries_profObjPeriodEntry) kept.periods).field <|
    (string msg.rawdata (by simp)).field <| (string msg.profileSignature (by simp)).last rfl

/-- A profile list is carried when it is kept. -/
theorem carries_getProfileListResponse {msg : SmlGetProfileListResponse} (kept : msg.Kept) :
    Carries (smlGetProfileListResponseWrite msg) smlGetProfileListResponseParse (some msg) := by
  -- Field by field, in the order of the source.
  have string := fun str here => carries_string (kept.strings str here)
  have time := fun time here => carries_time (kept.times time here)
  exact Carries.listOf 9 (by decide) <| (string msg.serverId (by simp)).field <|
    (time msg.actTime (by simp)).field <| (carries_u32 msg.regPeriod).field <|
    (carries_path kept.path).field <| (time msg.valTime (by simp)).field <|
    (carries_u64 msg.status).field <|
    (carries_sequence (fun _ => carries_periodEntry) kept.periods).field <|
    (string msg.rawdata (by simp)).field <| (string msg.periodSignature (by simp)).last rfl

/-- A request for parameters is carried when it is kept. -/
theorem carries_getProcParameterRequest {msg : SmlGetProcParameterRequest} (kept : msg.Kept) :
    Carries (smlGetProcParameterRequestWrite msg) smlGetProcParameterRequestParse (some msg) := by
  -- Field by field, in the order of the source.
  have string := fun str here => carries_string (kept.1 str here)
  exact Carries.listOf 5 (by decide) <| (string msg.serverId (by simp)).field <|
    (string msg.username (by simp)).field <| (string msg.password (by simp)).field <|
    (carries_path kept.2).field <| (string msg.attr (by simp)).last rfl

/-- A tree of parameters is carried when it is kept. -/
theorem carries_getProcParameterResponse {msg : SmlGetProcParameterResponse} (kept : msg.Kept) :
    Carries (smlGetProcParameterResponseWrite msg) smlGetProcParameterResponseParse (some msg) :=
  Carries.listOf 3 (by decide) <|
    (carries_string (kept.strings msg.serverId (by simp))).field <|
    (carries_path kept.path).field <| (carries_tree kept.tree).last rfl

/-- A request to set parameters is carried when it is kept. -/
theorem carries_setProcParameterRequest {msg : SmlSetProcParameterRequest} (kept : msg.Kept) :
    Carries (smlSetProcParameterRequestWrite msg) smlSetProcParameterRequestParse (some msg) := by
  -- Field by field, in the order of the source.
  have string := fun str here => carries_string (kept.strings str here)
  exact Carries.listOf 5 (by decide) <| (string msg.serverId (by simp)).field <|
    (string msg.username (by simp)).field <| (string msg.password (by simp)).field <|
    (carries_path kept.path).field <| (carries_tree kept.tree).last rfl

/-- A list request is carried when it is kept. -/
theorem carries_getListRequest {msg : SmlGetListRequest} (kept : msg.Kept) :
    Carries (smlGetListRequestWrite msg) smlGetListRequestParse (some msg) := by
  -- Field by field, in the order of the source.
  have string := fun str here => carries_string (kept str here)
  exact Carries.listOf 5 (by decide) <| (string msg.clientId (by simp)).field <|
    (string msg.serverId (by simp)).field <| (string msg.username (by simp)).field <|
    (string msg.password (by simp)).field <| (string msg.listName (by simp)).last rfl

/-- A list is carried when it is kept. -/
theorem carries_getListResponse {msg : SmlGetListResponse} (kept : msg.Kept) :
    Carries (smlGetListResponseWrite msg) smlGetListResponseParse (some msg) := by
  -- Field by field, in the order of the source.
  have string := fun str here => carries_string (kept.strings str here)
  have time := fun time here => carries_time (kept.times time here)
  exact Carries.listOf 7 (by decide) <| (string msg.clientId (by simp)).field <|
    (string msg.serverId (by simp)).field <| (string msg.listName (by simp)).field <|
    (time msg.actSensorTime (by simp)).field <| (carries_list kept.values).field <|
    (string msg.listSignature (by simp)).field <| (time msg.actGatewayTime (by simp)).last rfl

/-- An attention response is carried when it is kept. -/
theorem carries_attentionResponse {msg : SmlAttentionResponse} (kept : msg.Kept) :
    Carries (smlAttentionResponseWrite msg) smlAttentionResponseParse (some msg) := by
  -- Field by field, in the order of the source.
  have string := fun str here => carries_string (kept.1 str here)
  exact Carries.listOf 4 (by decide) <| (string msg.serverId (by simp)).field <|
    (string msg.attentionNumber (by simp)).field <| (string msg.attentionMessage (by simp)).field <|
    (carries_tree kept.2).last rfl

end Carries

end OpenwrtMisc.Libsml
