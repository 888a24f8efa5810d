/-
  One message of the live view (`applyLiveUpdate`, `applyLiveRemove`), as lookups.

  1. **Record** — the fields of a node after an update (`get?_nextRecord`).

  2. **Nodes** — the entry of each node after an update (`client?_update`), what a removal leaves (`remove_some`), and
     the nodes that are online (`mem_online_update`).
-/
import CfMonitor.Frontend.LiveView

namespace CfMonitor.Frontend

open CfMonitor.Lib
open Assoc (get? get?_erase)

/-! ## Record -/

theorem get?_selectMetricAvailability_other {record : Fields} {key : String} (hcapacity : key ≠ "cpu_capacity")
    (herrors : key ≠ "metric_errors") : get? (selectMetricAvailability record) key = none := by
  rw [selectMetricAvailability, Assoc.get?_append]
  cases asFiniteNumber (get? record "cpu_capacity") with
  | none => split_ifs <;> simp [get?, herrors]
  | some x => by_cases hx : 0 < x <;> split_ifs <;> simp [get?, hx, hcapacity, herrors]

theorem keys_selectMetricAvailability_nodup (record : Fields) :
    (Assoc.keys (selectMetricAvailability record)).Nodup := by
  rw [selectMetricAvailability]
  cases asFiniteNumber (get? record "cpu_capacity") with
  | none => split_ifs <;> simp [Assoc.keys]
  | some x => by_cases hx : 0 < x <;> split_ifs <;> simp [Assoc.keys, hx]

theorem get?_withCapacity (data incoming record : Fields) {key : String} (hkey : key ≠ "cpu_capacity") :
    get? (withCapacity data incoming record) key = get? record key := by
  rw [withCapacity]
  split_ifs
  · cases get? incoming "cpu_capacity" with
    | none =>
      show get? (Assoc.erase record "cpu_capacity") key = _
      rw [get?_erase, if_neg hkey]
    | some capacity =>
      show get? (Assoc.set record "cpu_capacity" capacity) key = _
      rw [Assoc.get?_set, if_neg hkey]
  · rfl

/-- The fields of the next record that are not about missing metrics. -/
theorem get?_nextRecord (previous : Fields) (message : LiveDataUpdateMessage) {key : String}
    (hcapacity : key ≠ "cpu_capacity") (herrors : key ≠ "metric_errors") :
    get? (nextRecord previous message) key =
      if key = "lastReportTime" then some (number message.timestamp)
      else get? (Assoc.merge previous message.data) key := by
  rw [nextRecord, Assoc.get?_merge (keys_selectMetricAvailability_nodup _),
    get?_selectMetricAvailability_other hcapacity herrors, Option.none_or, get?_erase, if_neg herrors,
    get?_erase, if_neg hcapacity, get?_withCapacity _ _ _ hcapacity, Assoc.get?_set]

/-! ## Nodes -/

theorem find_filter_ne {clients : List LiveClient} {uuid other : String} (hne : uuid ≠ other) :
    (clients.filter fun client => decide (client.uuid ≠ other)).find? (fun client => decide (client.uuid = uuid)) =
      clients.find? fun client => decide (client.uuid = uuid) := by
  induction clients with
  | nil => rfl
  | cons first rest ih =>
    by_cases hfirst : first.uuid = other
    · rw [List.filter_cons_of_neg (by simpa using hfirst), ih, List.find?_cons_of_neg]
      simpa [hfirst] using hne.symm
    · rw [List.filter_cons_of_pos (by simpa using hfirst), List.find?_cons, List.find?_cons, ih]

theorem find_filter_self (clients : List LiveClient) (uuid : String) :
    (clients.filter fun client => decide (client.uuid ≠ uuid)).find? (fun client => decide (client.uuid = uuid)) =
      none := by
  rw [List.find?_eq_none]
  intro client hmem hdec
  have hne := (List.mem_filter.mp hmem).2
  rw [decide_eq_true_eq] at hne hdec
  exact hne hdec

section Nodes

variable (view : LiveDataResponse)

theorem client?_update (message : LiveDataUpdateMessage) (uuid : String) :
    (applyLiveUpdate (some view) message).client? uuid =
      if uuid = message.client then
        some ⟨message.client, nextName message (view.client? message.client), message.timestamp,
          withoutIdentity (Assoc.merge (Assoc.erase (Assoc.erase
            (((view.client? message.client).map LiveClient.fields).getD []) "cpu_capacity") "metric_errors")
            (nextRecord ((get? view.data message.client).getD []) message))⟩
      else view.client? uuid := by
  show List.find? _ (List.filter _ view.clients ++ [_]) = _
  rw [List.find?_append]
  by_cases heq : uuid = message.client
  · subst heq
    rw [if_pos rfl, find_filter_self, Option.none_or, List.find?_cons_of_pos (by simp)]
    rfl
  · rw [if_neg heq, find_filter_ne heq, List.find?_cons_of_neg (by simpa using Ne.symm heq)]
    exact Option.or_none

theorem remove_some (message : LiveDataRemoveMessage) : ∃ last_known, applyLiveRemove (some view) message = some
    { view with
      online := view.online.filter fun uuid => decide (uuid ≠ message.client)
      clients := view.clients.filter fun client => decide (client.uuid ≠ message.client)
      data := Assoc.erase view.data message.client
      last_known := last_known
      count := (view.online.filter fun uuid => decide (uuid ≠ message.client)).length
      timestamp := message.timestamp } := ⟨_, rfl⟩

theorem mem_online_update (message : LiveDataUpdateMessage) (uuid : String) :
    uuid ∈ (applyLiveUpdate (some view) message).online ↔ uuid = message.client ∨ uuid ∈ view.online := by
  show uuid ∈ (if view.online.contains message.client then view.online else view.online ++ [message.client]) ↔ _
  split_ifs with hin
  · have hmem : message.client ∈ view.online := by simpa using hin
    constructor
    · exact Or.inr
    · rintro (rfl | h)
      · exact hmem
      · exact h
  · rw [List.mem_append, List.mem_singleton]
    exact or_comm

end Nodes

end CfMonitor.Frontend
