import DeviceMessaging.StoredFields

namespace DeviceMessaging

open JsonText

section Values

theorem optionalMember_keys (key : String) (j : Option JsValue) :
    ((optionalMember key j).map Prod.fst).Sublist [key.toList] := by
  cases j with
  | none => exact List.nil_sublist _
  | some j => exact List.Sublist.refl _

/-- An object with some of its members left out still has distinct keys. -/
theorem nodup_members {members : List (List Char × JsValue)} {keys : List (List Char)}
    (hm : (members.map Prod.fst).Sublist keys) (hk : keys.Nodup) :
    (members.map Prod.fst).Nodup :=
  hm.nodup hk

theorem members_append {ms ms' : List (List Char × JsValue)} {ks ks' : List (List Char)}
    (h : (ms.map Prod.fst).Sublist ks) (h' : (ms'.map Prod.fst).Sublist ks') :
    ((ms ++ ms').map Prod.fst).Sublist (ks ++ ks') := by
  rw [List.map_append]
  exact h.append h'

theorem proper_optionalMember {key : String} {j : Option JsValue}
    (hj : ∀ v ∈ j, Proper JsNumber.format v) :
    ∀ e ∈ optionalMember key j, Proper JsNumber.format e.2 := by
  cases j with
  | none => exact fun e he => nomatch he
  | some v =>
    intro e he
    rw [List.mem_singleton.mp he]
    exact hj v rfl

theorem proper_append {ms ms' : List (List Char × JsValue)}
    (h : ∀ e ∈ ms, Proper JsNumber.format e.2) (h' : ∀ e ∈ ms', Proper JsNumber.format e.2) :
    ∀ e ∈ ms ++ ms', Proper JsNumber.format e.2 := by
  intro e he
  rcases List.mem_append.mp he with he | he
  · exact h e he
  · exact h' e he

theorem proper_natValue (n : Nat) : Proper JsNumber.format (natValue n) :=
  .num (JsNumber.format_faithful (JsNumber.ofNat_canonical n))

theorem proper_map {α : Type} {toValue : α → JsValue} {a : Option α}
    (ha : ∀ x ∈ a, Proper JsNumber.format (toValue x)) :
    ∀ v ∈ a.map toValue, Proper JsNumber.format v := by
  intro v hv
  obtain ⟨x, hx, rfl⟩ := Option.mem_map.mp hv
  exact ha x hx

theorem proper_some {v : JsValue} (hv : Proper JsNumber.format v) :
    ∀ w ∈ some v, Proper JsNumber.format w := by
  intro w hw
  cases hw
  exact hv

theorem RelayNodeInfo.proper {r : RelayNodeInfo} (hr : r.Accepted) :
    Proper JsNumber.format r.toValue := by
  obtain ⟨-, hsnr, hrssi⟩ := hr
  refine .obj (nodup_members (members_append (members_append (members_append
    (optionalMember_keys _ _) (optionalMember_keys _ _)) (optionalMember_keys _ _))
    (optionalMember_keys _ _)) (by decide)) ?_
  refine proper_append (proper_append (proper_append ?_ ?_) ?_) ?_
  · exact proper_optionalMember (proper_map fun n _ => proper_natValue n)
  · exact proper_optionalMember (proper_map fun s _ => .str _)
  · exact proper_optionalMember (proper_map fun x hx => .num (JsNumber.format_faithful (hsnr x hx)))
  · exact proper_optionalMember
      (proper_map fun x hx => .num (JsNumber.format_faithful (hrssi x hx)))

theorem Device.proper {d : Device} (hd : ∀ r ∈ d.relayNode, r.Accepted) :
    Proper JsNumber.format d.toValue := by
  refine .obj (nodup_members (members_append (members_append
    (optionalMember_keys _ _) (optionalMember_keys _ _)) (optionalMember_keys _ _))
    (by decide)) ?_
  refine proper_append (proper_append ?_ ?_) ?_
  · exact proper_optionalMember (proper_some (.str _))
  · exact proper_optionalMember (proper_some (.str _))
  · exact proper_optionalMember (proper_map fun r hr => RelayNodeInfo.proper (hd r hr))

theorem RequestPayload.proper (p : RequestPayload) : Proper JsNumber.format p.toValue := by
  cases p with
  | date year month day =>
    refine .obj (nodup_members (members_append (members_append
      (optionalMember_keys _ _) (optionalMember_keys _ _)) (optionalMember_keys _ _))
      (by decide)) ?_
    exact proper_append (proper_append (proper_optionalMember (proper_some (proper_natValue year)))
      (proper_optionalMember (proper_some (proper_natValue month))))
      (proper_optionalMember (proper_some (proper_natValue day)))
  | time hour minute second =>
    refine .obj (nodup_members (members_append (members_append
      (optionalMember_keys _ _) (optionalMember_keys _ _)) (optionalMember_keys _ _))
      (by decide)) ?_
    exact proper_append (proper_append (proper_optionalMember (proper_some (proper_natValue hour)))
      (proper_optionalMember (proper_some (proper_natValue minute))))
      (proper_optionalMember (proper_map fun s _ => proper_natValue s))

theorem RequestData.proper (r : RequestData) : Proper JsNumber.format r.toValue := by
  refine .obj (nodup_members (members_append
    (optionalMember_keys _ _) (optionalMember_keys _ _)) (by decide)) ?_
  refine proper_append ?_ ?_
  · exact proper_optionalMember (proper_map fun s _ => .str _)
  · exact proper_optionalMember (proper_map fun p _ => RequestPayload.proper p)

end Values

namespace Stored

theorem optionalField_keys (key : String) (text : Option String) :
    (optionalField key text).keys.Sublist [key] := by
  cases text with
  | none => exact List.nil_sublist _
  | some text => exact List.Sublist.refl _

theorem fields_append {fs fs' : List (Sigma fun _ : String => String)} {ks ks' : List String}
    (h : fs.keys.Sublist ks) (h' : fs'.keys.Sublist ks') :
    (fs ++ fs').keys.Sublist (ks ++ ks') := by
  unfold List.keys at *
  rw [List.map_append]
  exact h.append h'

theorem serialize_nodupKeys (dto : CreateDeviceMessage) :
    (serializeCreateDeviceMessage dto).NodupKeys := by
  have hsub := fields_append (fields_append (fields_append (fields_append (fields_append
    (fields_append (fields_append (fields_append
      (optionalField_keys "commandType" (some dto.commandType.text))
      (optionalField_keys "priority" (some (String.ofList dto.priority.text))))
      (optionalField_keys "pluginId" (some dto.pluginId)))
      (optionalField_keys "device" (some (stringify dto.device.toValue))))
      (optionalField_keys "networkId"
        (dto.networkId.map fun n => String.ofList (JsNumber.ofNat n).text)))
      (optionalField_keys "correlationId" (truthy dto.correlationId)))
      (optionalField_keys "requestData" (dto.requestData.map fun r => stringify r.toValue)))
      (optionalField_keys "phase" (dto.phase.map Phase.text)))
      (optionalField_keys "deliveryStatus" (some "QUEUED"))
  exact hsub.nodup (by decide)

/-- The hash an enqueue leaves, whatever the order its fields come back in. -/
def Holds (content : HashContent) (dto : CreateDeviceMessage) : Prop :=
  content.entries.Perm (serializeCreateDeviceMessage dto)

def create (dto : CreateDeviceMessage) : HashContent :=
  ⟨serializeCreateDeviceMessage dto, serialize_nodupKeys dto⟩

end Stored

end DeviceMessaging
