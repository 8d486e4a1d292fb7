import EquipmentMonitoring.Backend.Loads
import EquipmentMonitoring.Gateway.Forwarding

/-!
# Forwarded Events in Python

The backend's reader takes what the gateway forwards, as far as it takes the numbers: strings,
repeated keys and nesting are never in the way.

## Key Results

- `forwardedTree_loadable`: a forwarded event loads if the numbers of its payload do
- `loads_render_tight`: a loadable tree loads as its value
-/

namespace EquipmentMonitoring.Exchange

open EquipmentMonitoring.Json EquipmentMonitoring.Telemetry EquipmentMonitoring.Forwarder

/-- A tree that loads inside of so many containers. -/
structure Loadable (depth : Nat) (t : Tree) : Prop where
  accepted : t.accepted Backend.dialect = true
  unique : t.uniqueKeys = true
  height : t.height + depth ≤ 64
  utf8 : t.accepted Dialect.utf8 = true

theorem Loadable.mono {depth depth' : Nat} {t : Tree} (h : Loadable depth t)
    (hle : depth' ≤ depth) : Loadable depth' t :=
  ⟨h.accepted, h.unique, (Nat.add_le_add_left hle _).trans h.height, h.utf8⟩

/-- A loadable text loads as its value. -/
theorem loads_render_tight {t : Tree} (h : Loadable 0 t) (python : Backend.Interpreter) :
    Backend.loads python t.render = some t.value := by
  have htext : t.render = renderElement (tight t) := by simp [renderElement, tight, Space.none]
  refine Backend.loads_eq_some_iff.mpr ⟨t.valid_render h.utf8, tight t, htext.symm, h.accepted,
    h.unique, h.height.trans python.le_recursionLimit, rfl⟩

section Source

variable {event : Event} (src : EventSource event) {receivedAt : Bytes}

/-- A forwarded event is an object whose members are the payload's and the receipt time. -/
theorem forwardedTree_loadable [Nlohmann.Library] {depth : Nat}
    (hvalid : Utf8.valid receivedAt = true)
    (hnumbers : ∀ m ∈ src.members, m.value.accepted Backend.dialect = true)
    (hheight : ∀ m ∈ src.members, m.value.height + (depth + 1) ≤ 64) :
    Loadable depth (forwardedTree src.members receivedAt) where
  accepted := forwardedTree_accepted (fun m hm => ⟨rfl, hnumbers m hm⟩) rfl rfl
  utf8 := forwarded_utf8 src hvalid
  unique := by
    rw [forwardedTree, Tree.uniqueKeys_ofMembers, Bool.and_eq_true, decide_eq_true_iff,
      List.all_eq_true]
    refine ⟨forwarded_names_nodup src receivedAt, fun m hm => ?_⟩
    rcases List.mem_append.mp hm with hkept | hreceipt
    · obtain ⟨m', hm', rfl⟩ := List.mem_map.mp hkept
      exact src.values_unique m' (List.mem_of_mem_filter hm')
    · obtain rfl := List.mem_singleton.mp hreceipt
      rfl
  height := by
    -- The receipt is a scalar: the height comes from the members kept.
    have hle : (forwardedTree src.members receivedAt).height ≤ 63 - depth + 1 := by
      refine Tree.height_ofMembers fun m hm => ?_
      rcases List.mem_append.mp hm with hkept | hreceipt
      · obtain ⟨m', hm', rfl⟩ := List.mem_map.mp hkept
        have h := hheight m' (List.mem_of_mem_filter hm')
        have hvalue : (trimmed m').value = m'.value := rfl
        rw [hvalue]
        omega
      · obtain rfl := List.mem_singleton.mp hreceipt
        exact Nat.zero_le _
    have h := hheight src.first (List.mem_cons_self ..)
    omega

end Source

end EquipmentMonitoring.Exchange
