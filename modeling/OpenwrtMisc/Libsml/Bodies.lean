import OpenwrtMisc.Libsml.Trees

/-! The bodies of the messages. -/

namespace OpenwrtMisc.Libsml

/-- A request to open a file. -/
structure SmlOpenRequest where
  codepage : Option OctetString
  clientId : Option OctetString
  reqFileId : Option OctetString
  serverId : Option OctetString
  username : Option OctetString
  password : Option OctetString
  smlVersion : Option (BitVec 8)

/-- `sml_open_request_parse`. -/
def smlOpenRequestParse : Reader (Option SmlOpenRequest) :=
  listOf 7 <|
    field smlOctetStringParse fun codepage =>
    field smlOctetStringParse fun clientId =>
    field smlOctetStringParse fun reqFileId =>
    field smlOctetStringParse fun serverId =>
    field smlOctetStringParse fun username =>
    field smlOctetStringParse fun password =>
    field smlU8Parse fun smlVersion =>
      return some { codepage, clientId, reqFileId, serverId, username, password, smlVersion }

/-- The response to it. -/
structure SmlOpenResponse where
  codepage : Option OctetString
  clientId : Option OctetString
  reqFileId : Option OctetString
  serverId : Option OctetString
  refTime : Option SmlTime
  smlVersion : Option (BitVec 8)

/-- `sml_open_response_parse`. -/
def smlOpenResponseParse : Reader (Option SmlOpenResponse) :=
  listOf 6 <|
    field smlOctetStringParse fun codepage =>
    field smlOctetStringParse fun clientId =>
    field smlOctetStringParse fun reqFileId =>
    field smlOctetStringParse fun serverId =>
    field smlTimeParse fun refTime =>
    field smlU8Parse fun smlVersion =>
      return some { codepage, clientId, reqFileId, serverId, refTime, smlVersion }

/-- A request to close a file, and the response to it. -/
structure SmlClose where
  globalSignature : Option OctetString

/-- `sml_close_request_parse` and `sml_close_response_parse`. -/
def smlCloseRequestParse : Reader (Option SmlClose) :=
  listOf 1 <| field smlOctetStringParse fun globalSignature => return some { globalSignature }
def smlCloseResponseParse : Reader (Option SmlClose) :=
  listOf 1 <| field smlOctetStringParse fun globalSignature => return some { globalSignature }

/-- A request for a profile, as a pack or as a list. -/
structure SmlGetProfilePackRequest where
  serverId : Option OctetString
  username : Option OctetString
  password : Option OctetString
  withRawdata : Option UInt8
  beginTime : Option SmlTime
  endTime : Option SmlTime
  parameterTreePath : Option SmlTreePath
  objectList : List (Option OctetString)
  dasDetails : Option SmlTree

/-- The list of objects, which is empty when it is skipped. -/
def objectListParse : Reader (Option (List (Option OctetString))) := do
  let skipped ← smlBufOptionalIsSkipped
  if skipped ≠ 0 then return some []
  else
    let type ← smlBufGetNextType
    if type ≠ some smlTypeList then failed
    else
      let len ← smlBufGetNextLength
      elements smlOctetStringParse len.toNat

/-- `sml_get_profile_pack_request_parse`, which is `sml_get_profile_list_request_parse` too. -/
def smlGetProfilePackRequestParse : Reader (Option SmlGetProfilePackRequest) :=
  listOf 9 <|
    field smlOctetStringParse fun serverId =>
    field smlOctetStringParse fun username =>
    field smlOctetStringParse fun password =>
    field smlBooleanParse fun withRawdata =>
    field smlTimeParse fun beginTime =>
    field smlTimeParse fun endTime =>
    field smlTreePathParse fun parameterTreePath => do
      let objects ← objectListParse
      match objects with
      | none => return none
      | some objectList =>
        field smlTreeParse fun dasDetails =>
          return some ⟨serverId, username, password, withRawdata, beginTime, endTime,
            parameterTreePath, objectList, dasDetails⟩

/-- A head of a column of a profile. -/
structure SmlProfObjHeaderEntry where
  objName : Option OctetString
  unit : Option (BitVec 8)
  scaler : Option (BitVec 8)

/-- `sml_prof_obj_header_entry_parse`. -/
def smlProfObjHeaderEntryParse : Reader (Option SmlProfObjHeaderEntry) :=
  listOf 3 <|
    field smlOctetStringParse fun objName =>
    field smlUnitParse fun unit =>
    field smlI8Parse fun scaler =>
      return some { objName, unit, scaler }

/-- A value of a profile. -/
structure SmlValueEntry where
  value : Option SmlValue
  valueSignature : Option OctetString

/-- `sml_value_entry_parse`. -/
def smlValueEntryParse : Reader (Option SmlValueEntry) :=
  listOf 2 <|
    field smlValueParse fun value =>
    field smlOctetStringParse fun valueSignature =>
      return some { value, valueSignature }

/-- A row of a profile. -/
structure SmlProfObjPeriodEntry where
  valTime : Option SmlTime
  status : Option (BitVec 64)
  valueList : Option (List (Option SmlValueEntry))
  periodSignature : Option OctetString

/-- `sml_prof_obj_period_entry_parse`. -/
def smlProfObjPeriodEntryParse : Reader (Option SmlProfObjPeriodEntry) :=
  listOf 4 <|
    field smlTimeParse fun valTime =>
    field smlU64Parse fun status =>
    field (smlSequenceParse smlValueEntryParse) fun valueList =>
    field smlOctetStringParse fun periodSignature =>
      return some { valTime, status, valueList, periodSignature }

/-- A profile as a pack. -/
structure SmlGetProfilePackResponse where
  serverId : Option OctetString
  actTime : Option SmlTime
  regPeriod : Option (BitVec 32)
  parameterTreePath : Option SmlTreePath
  headerList : Option (List (Option SmlProfObjHeaderEntry))
  periodList : Option (List (Option SmlProfObjPeriodEntry))
  rawdata : Option OctetString
  profileSignature : Option OctetString

/-- `sml_get_profile_pack_response_parse`. -/
def smlGetProfilePackResponseParse : Reader (Option SmlGetProfilePackResponse) :=
  listOf 8 <|
    field smlOctetStringParse fun serverId =>
    field smlTimeParse fun actTime =>
    field smlU32Parse fun regPeriod =>
    field smlTreePathParse fun parameterTreePath =>
    field (smlSequenceParse smlProfObjHeaderEntryParse) fun headerList =>
    field (smlSequenceParse smlProfObjPeriodEntryParse) fun periodList =>
    field smlOctetStringParse fun rawdata =>
    field smlOctetStringParse fun profileSignature =>
      return some ⟨serverId, actTime, regPeriod, parameterTreePath, headerList, periodList, rawdata,
        profileSignature⟩

/-- A profile as a list. -/
structure SmlGetProfileListResponse where
  serverId : Option OctetString
  actTime : Option SmlTime
  regPeriod : Option (BitVec 32)
  parameterTreePath : Option SmlTreePath
  valTime : Option SmlTime
  status : Option (BitVec 64)
  periodList : Option (List (Option SmlPeriodEntry))
  rawdata : Option OctetString
  periodSignature : Option OctetString

/-- `sml_get_profile_list_response_parse`. -/
def smlGetProfileListResponseParse : Reader (Option SmlGetProfileListResponse) :=
  listOf 9 <|
    field smlOctetStringParse fun serverId =>
    field smlTimeParse fun actTime =>
    field smlU32Parse fun regPeriod =>
    field smlTreePathParse fun parameterTreePath =>
    field smlTimeParse fun valTime =>
    field smlU64Parse fun status =>
    field (smlSequenceParse smlPeriodEntryParse) fun periodList =>
    field smlOctetStringParse fun rawdata =>
    field smlOctetStringParse fun periodSignature =>
      return some ⟨serverId, actTime, regPeriod, parameterTreePath, valTime, status, periodList,
        rawdata, periodSignature⟩

/-- A request for parameters. -/
structure SmlGetProcParameterRequest where
  serverId : Option OctetString
  username : Option OctetString
  password : Option OctetString
  parameterTreePath : Option SmlTreePath
  attr : Option OctetString

/-- `sml_get_proc_parameter_request_parse`. -/
def smlGetProcParameterRequestParse : Reader (Option SmlGetProcParameterRequest) :=
  listOf 5 <|
    field smlOctetStringParse fun serverId =>
    field smlOctetStringParse fun username =>
    field smlOctetStringParse fun password =>
    field smlTreePathParse fun parameterTreePath =>
    field smlOctetStringParse fun attr =>
      return some ⟨serverId, username, password, parameterTreePath, attr⟩

/-- The response to it. -/
structure SmlGetProcParameterResponse where
  serverId : Option OctetString
  parameterTreePath : Option SmlTreePath
  parameterTree : Option SmlTree

/-- `sml_get_proc_parameter_response_parse`. -/
def smlGetProcParameterResponseParse : Reader (Option SmlGetProcParameterResponse) :=
  listOf 3 <|
    field smlOctetStringParse fun serverId =>
    field smlTreePathParse fun parameterTreePath =>
    field smlTreeParse fun parameterTree =>
      return some { serverId, parameterTreePath, parameterTree }

/-- A request to set parameters. -/
structure SmlSetProcParameterRequest where
  serverId : Option OctetString
  username : Option OctetString
  password : Option OctetString
  parameterTreePath : Option SmlTreePath
  parameterTree : Option SmlTree

/-- `sml_set_proc_parameter_request_parse`. -/
def smlSetProcParameterRequestParse : Reader (Option SmlSetProcParameterRequest) :=
  listOf 5 <|
    field smlOctetStringParse fun serverId =>
    field smlOctetStringParse fun username =>
    field smlOctetStringParse fun password =>
    field smlTreePathParse fun parameterTreePath =>
    field smlTreeParse fun parameterTree =>
      return some { serverId, username, password, parameterTreePath, parameterTree }

/-- A request for a list of values. -/
structure SmlGetListRequest where
  clientId : Option OctetString
  serverId : Option OctetString
  username : Option OctetString
  password : Option OctetString
  listName : Option OctetString

/-- `sml_get_list_request_parse`. -/
def smlGetListRequestParse : Reader (Option SmlGetListRequest) :=
  listOf 5 <|
    field smlOctetStringParse fun clientId =>
    field smlOctetStringParse fun serverId =>
    field smlOctetStringParse fun username =>
    field smlOctetStringParse fun password =>
    field smlOctetStringParse fun listName =>
      return some { clientId, serverId, username, password, listName }

/-- A list of values, which is what a meter sends. -/
structure SmlGetListResponse where
  clientId : Option OctetString
  serverId : Option OctetString
  listName : Option OctetString
  actSensorTime : Option SmlTime
  valList : List SmlList
  listSignature : Option OctetString
  actGatewayTime : Option SmlTime

/-- `sml_get_list_response_parse`. -/
def smlGetListResponseParse : Reader (Option SmlGetListResponse) :=
  listOf 7 <|
    field smlOctetStringParse fun clientId =>
    field smlOctetStringParse fun serverId =>
    field smlOctetStringParse fun listName =>
    field smlTimeParse fun actSensorTime =>
    field smlListParse fun valList =>
    field smlOctetStringParse fun listSignature =>
    field smlTimeParse fun actGatewayTime =>
      return some
        ⟨clientId, serverId, listName, actSensorTime, valList, listSignature, actGatewayTime⟩

/-- A response that tells of an error. -/
structure SmlAttentionResponse where
  serverId : Option OctetString
  attentionNumber : Option OctetString
  attentionMessage : Option OctetString
  attentionDetails : Option SmlTree

/-- `sml_attention_response_parse`. -/
def smlAttentionResponseParse : Reader (Option SmlAttentionResponse) :=
  listOf 4 <|
    field smlOctetStringParse fun serverId =>
    field smlOctetStringParse fun attentionNumber =>
    field smlOctetStringParse fun attentionMessage =>
    field smlTreeParse fun attentionDetails =>
      return some { serverId, attentionNumber, attentionMessage, attentionDetails }

section Safe

variable {room : Nat}

/-- The lists of the profiles' objects, and what they consist of, are safe. -/
theorem objectListParse_safe : Safe room objectListParse :=
  smlBufOptionalIsSkipped_safe.bind fun _ => .ite (fun _ => .pure _) fun _ =>
    smlBufGetNextType_safe.bind fun _ => .ite (fun _ => failed_safe) fun _ =>
      smlBufGetNextLength_safe.bind fun _ => elements_safe smlOctetStringParse_safe _

/-- An entry of the header of a profile pack is safe. -/
theorem smlProfObjHeaderEntryParse_safe : Safe room smlProfObjHeaderEntryParse :=
  listOf_safe (by decide) fun _ _ => field_safe smlOctetStringParse_safe fun _ =>
    field_safe wordParse_safe fun _ => field_safe wordParse_safe fun _ => .pure _

/-- A value with its signature is safe. -/
theorem smlValueEntryParse_safe : Safe room smlValueEntryParse :=
  listOf_safe (by decide) fun _ _ => field_safe smlValueParse_safe fun _ =>
    field_safe smlOctetStringParse_safe fun _ => .pure _

/-- A period of a profile pack is safe. -/
theorem smlProfObjPeriodEntryParse_safe : Safe room smlProfObjPeriodEntryParse :=
  listOf_safe (by decide) fun _ _ => field_safe smlTimeParse_safe fun _ =>
    field_safe wordParse_safe fun _ =>
    field_safe (smlSequenceParse_safe smlValueEntryParse_safe) fun _ =>
    field_safe smlOctetStringParse_safe fun _ => .pure _

/-- An open request is safe. -/
theorem smlOpenRequestParse_safe : Safe room smlOpenRequestParse :=
  listOf_safe (by decide) fun _ _ => field_safe smlOctetStringParse_safe fun _ =>
    field_safe smlOctetStringParse_safe fun _ => field_safe smlOctetStringParse_safe fun _ =>
    field_safe smlOctetStringParse_safe fun _ => field_safe smlOctetStringParse_safe fun _ =>
    field_safe smlOctetStringParse_safe fun _ => field_safe wordParse_safe fun _ => .pure _

/-- An open response is safe. -/
theorem smlOpenResponseParse_safe : Safe room smlOpenResponseParse :=
  listOf_safe (by decide) fun _ _ => field_safe smlOctetStringParse_safe fun _ =>
    field_safe smlOctetStringParse_safe fun _ => field_safe smlOctetStringParse_safe fun _ =>
    field_safe smlOctetStringParse_safe fun _ => field_safe smlTimeParse_safe fun _ =>
    field_safe wordParse_safe fun _ => .pure _

/-- A close request is safe, as is a close response, which has the same parser. -/
theorem smlCloseRequestParse_safe : Safe room smlCloseRequestParse :=
  listOf_safe (by decide) fun _ _ => field_safe smlOctetStringParse_safe fun _ => .pure _

/-- A profile request is safe, for packs and for lists. -/
theorem smlGetProfilePackRequestParse_safe : Safe room smlGetProfilePackRequestParse := by
  -- Field by field, in the order of the source.
  refine listOf_safe (by decide) fun _ _ => field_safe smlOctetStringParse_safe fun _ =>
    field_safe smlOctetStringParse_safe fun _ => field_safe smlOctetStringParse_safe fun _ =>
    field_safe smlBooleanParse_safe fun _ => field_safe smlTimeParse_safe fun _ =>
    field_safe smlTimeParse_safe fun _ => field_safe smlTreePathParse_safe fun _ =>
    objectListParse_safe.bind fun objects => ?_
  cases objects with
  | none => exact .pure _
  | some objectList => exact field_safe smlTreeParse_safe fun _ => .pure _

/-- A profile pack is safe. -/
theorem smlGetProfilePackResponseParse_safe : Safe room smlGetProfilePackResponseParse :=
  listOf_safe (by decide) fun _ _ => field_safe smlOctetStringParse_safe fun _ =>
    field_safe smlTimeParse_safe fun _ => field_safe wordParse_safe fun _ =>
    field_safe smlTreePathParse_safe fun _ =>
    field_safe (smlSequenceParse_safe smlProfObjHeaderEntryParse_safe) fun _ =>
    field_safe (smlSequenceParse_safe smlProfObjPeriodEntryParse_safe) fun _ =>
    field_safe smlOctetStringParse_safe fun _ => field_safe smlOctetStringParse_safe fun _ =>
    .pure _

/-- A profile list is safe. -/
theorem smlGetProfileListResponseParse_safe : Safe room smlGetProfileListResponseParse :=
  listOf_safe (by decide) fun _ _ => field_safe smlOctetStringParse_safe fun _ =>
    field_safe smlTimeParse_safe fun _ => field_safe wordParse_safe fun _ =>
    field_safe smlTreePathParse_safe fun _ => field_safe smlTimeParse_safe fun _ =>
    field_safe wordParse_safe fun _ =>
    field_safe (smlSequenceParse_safe smlPeriodEntryParse_safe) fun _ =>
    field_safe smlOctetStringParse_safe fun _ => field_safe smlOctetStringParse_safe fun _ =>
    .pure _

/-- A request for parameters is safe. -/
theorem smlGetProcParameterRequestParse_safe : Safe room smlGetProcParameterRequestParse :=
  listOf_safe (by decide) fun _ _ => field_safe smlOctetStringParse_safe fun _ =>
    field_safe smlOctetStringParse_safe fun _ => field_safe smlOctetStringParse_safe fun _ =>
    field_safe smlTreePathParse_safe fun _ => field_safe smlOctetStringParse_safe fun _ => .pure _

/-- A tree of parameters is safe. -/
theorem smlGetProcParameterResponseParse_safe : Safe room smlGetProcParameterResponseParse :=
  listOf_safe (by decide) fun _ _ => field_safe smlOctetStringParse_safe fun _ =>
    field_safe smlTreePathParse_safe fun _ => field_safe smlTreeParse_safe fun _ => .pure _

/-- A request to set parameters is safe. -/
theorem smlSetProcParameterRequestParse_safe : Safe room smlSetProcParameterRequestParse :=
  listOf_safe (by decide) fun _ _ => field_safe smlOctetStringParse_safe fun _ =>
    field_safe smlOctetStringParse_safe fun _ => field_safe smlOctetStringParse_safe fun _ =>
    field_safe smlTreePathParse_safe fun _ => field_safe smlTreeParse_safe fun _ => .pure _

/-- A list request is safe. -/
theorem smlGetListRequestParse_safe : Safe room smlGetListRequestParse :=
  listOf_safe (by decide) fun _ _ => field_safe smlOctetStringParse_safe fun _ =>
    field_safe smlOctetStringParse_safe fun _ => field_safe smlOctetStringParse_safe fun _ =>
    field_safe smlOctetStringParse_safe fun _ =>
    field_safe smlOctetStringParse_safe fun _ => .pure _

/-- A list is safe. -/
theorem smlGetListResponseParse_safe : Safe room smlGetListResponseParse :=
  listOf_safe (by decide) fun _ _ => field_safe smlOctetStringParse_safe fun _ =>
    field_safe smlOctetStringParse_safe fun _ => field_safe smlOctetStringParse_safe fun _ =>
    field_safe smlTimeParse_safe fun _ => field_safe smlListParse_safe fun _ =>
    field_safe smlOctetStringParse_safe fun _ => field_safe smlTimeParse_safe fun _ => .pure _

/-- An attention response is safe. -/
theorem smlAttentionResponseParse_safe : Safe room smlAttentionResponseParse :=
  listOf_safe (by decide) fun _ _ => field_safe smlOctetStringParse_safe fun _ =>
    field_safe smlOctetStringParse_safe fun _ => field_safe smlOctetStringParse_safe fun _ =>
    field_safe smlTreeParse_safe fun _ => .pure _

end Safe

end OpenwrtMisc.Libsml
