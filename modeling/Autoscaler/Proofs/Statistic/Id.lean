import Autoscaler.Document.Statistics
import Autoscaler.Proofs.Document.Record
import Autoscaler.Proofs.Duration.Text
import Autoscaler.Proofs.Zone.Text

/-!
# Identifiers of statistics read back

The document of an identifier has its parts in fields of their own, the window and the zone set as
texts. The window always comes back from its text, so identifiers with different windows have different
documents; the identifier comes back as a whole when its zone set does (`window_kept`).
-/

namespace Autoscaler

open Document (required? optional?)

namespace StatisticId

theorem ofDocument?_window (w : Duration) : Duration.ofDocument? (.text w.text) = some w := by
  rw [Duration.ofDocument?, Document.text?, Option.bind_some, Duration.parse_text]
  rfl

theorem ofDocument?_aggregation (a : Aggregation) :
    Aggregation.ofDocument? .json (.text a.name) = some a := by
  cases a <;> rfl

/-- The parts of an identifier under the names of its fields. -/
def entries (s : StatisticId) : List (String × Option Document) :=
  [("metric", some (.text s.metric)), ("aggregation", some (.text s.aggregation.name)),
    ("window", some (.text s.window.text)), ("instance", s.instanceId.map .text),
    ("zone", s.zone.map ZoneSet.toDocument)]

theorem toDocument_eq (s : StatisticId) : s.toDocument = .table (present s.entries) := by
  obtain ⟨metric, aggregation, window, instanceId, zone⟩ := s
  cases instanceId <;> cases zone <;> rfl

theorem lookup_entries {s : StatisticId} (name : String) (value : Option Document)
    (mem : (name, value) ∈ s.entries) : (present s.entries).lookup name = value :=
  Record.lookup_present (by simp [entries]) mem

theorem required?_entries {α : Type} {read : Document → Option α} {s : StatisticId} {a : α}
    (name : String) (d : Document) (mem : (name, some d) ∈ s.entries) (back : read d = some a) :
    required? (present s.entries) name read = some a := by
  rw [required?, lookup_entries name (some d) mem]
  exact back

theorem window_entries (s : StatisticId) :
    required? (present s.entries) "window" Duration.ofDocument? = some s.window :=
  required?_entries "window" (.text s.window.text) (by simp [entries]) (ofDocument?_window s.window)

/-- All of an identifier comes back from its document, as far as the text of its zone set does. -/
theorem ofDocument?_toDocument (s : StatisticId) : ofDocument? s.toDocument =
    (s.zone.elim (some none) fun z => (ZoneSet.ofText? z.text).map some).map
      fun zone => { s with zone := zone } := by
  have metric : required? (present s.entries) "metric" Document.text? = some s.metric :=
    required?_entries "metric" (.text s.metric) (by simp [entries]) rfl
  have aggregation : required? (present s.entries) "aggregation" (Aggregation.ofDocument? .json) =
      some s.aggregation :=
    required?_entries "aggregation" (.text s.aggregation.name) (by simp [entries])
      (ofDocument?_aggregation s.aggregation)
  have instanceId : optional? (present s.entries) "instance" Document.text? = some s.instanceId := by
    rw [optional?, lookup_entries "instance" (s.instanceId.map .text) (by simp [entries])]
    cases s.instanceId <;> rfl
  have zone : optional? (present s.entries) "zone" ZoneSet.ofDocument? =
      s.zone.elim (some none) fun z => (ZoneSet.ofText? z.text).map some := by
    rw [optional?, lookup_entries "zone" (s.zone.map ZoneSet.toDocument) (by simp [entries])]
    cases s.zone with
    | none => rfl
    | some z =>
      simp only [Option.map_some, ZoneSet.toDocument, ZoneSet.ofDocument?, Document.text?,
        Option.bind_some, Option.elim_some]
  rw [toDocument_eq]
  simp only [ofDocument?, Dialect.record?, metric, aggregation, s.window_entries, instanceId, zone,
    Option.bind_eq_bind, Option.bind_some]
  cases s.zone.elim (some none) fun z => (ZoneSet.ofText? z.text).map some <;> rfl

theorem window_of_ofDocument? {s read : StatisticId} (back : ofDocument? s.toDocument = some read) :
    read.window = s.window := by
  rw [ofDocument?_toDocument, Option.map_eq_some_iff] at back
  obtain ⟨zone, -, rfl⟩ := back
  rfl

theorem ofDocument?_of_plain {s : StatisticId} (plain : ∀ z, s.zone = some z → z.IsPlain) :
    ofDocument? s.toDocument = some s := by
  obtain ⟨metric, aggregation, window, instanceId, zone⟩ := s
  rw [ofDocument?_toDocument]
  cases zone with
  | none => rfl
  | some z =>
    have back := ZoneSet.ofText?_eq_some.mpr (ZoneSet.parse_text_eq_ok.mpr (plain z rfl))
    simp [back]

/-- Identifiers that differ in the window only have different texts. -/
theorem window_of_text {s : StatisticId} {w : Duration}
    (same : ({ s with window := w } : StatisticId).text = s.text) : w = s.window := by
  rw [← String.toList_inj] at same
  simp only [text, String.toList_append, List.append_left_inj, List.append_right_inj] at same
  exact Duration.text_injective (String.toList_inj.mp same)

/-- The text of a duration gives it back, and so the document of an identifier gives back its window,
whatever becomes of its zone set; the identifier comes back as a whole when its zone set does. Where
windows are different, their texts are and so are the documents of identifiers with them, and so are the
texts of identifiers that differ in nothing else. -/
theorem window_kept (d : Duration) (s o : StatisticId) :
    Duration.parse d.text = .ok d ∧
    (∃ fields, s.toDocument = .table fields ∧
      Document.required? fields "window" Duration.ofDocument? = some s.window) ∧
    (∀ read, ofDocument? s.toDocument = some read → read.window = s.window) ∧
    ((∀ z, s.zone = some z → z.IsPlain) → ofDocument? s.toDocument = some s) ∧
    (s.window ≠ o.window → s.window.text ≠ o.window.text ∧ s.toDocument ≠ o.toDocument) ∧
    (d ≠ s.window → ({ s with window := d } : StatisticId).text ≠ s.text) := by
  refine ⟨Duration.parse_text d, ⟨_, s.toDocument_eq, s.window_entries⟩,
    fun _ => window_of_ofDocument?, ofDocument?_of_plain, ?_, mt window_of_text⟩
  intro different
  refine ⟨mt Duration.text_injective different, fun same => ?_⟩
  rw [toDocument_eq, toDocument_eq] at same
  have read := o.window_entries
  rw [← Document.table.inj same, s.window_entries] at read
  exact different (Option.some.inj read)

/-- An instance in two regions, over the longest window and over five minutes. -/
theorem window_kept_longest :
    let longest : Duration := ⟨wordLimit * Duration.second - 1, by decide⟩
    let regions : ZoneSet := .ofPieces ["us-east-1a", "us-east-1b"] (by decide) (by decide)
    let s : StatisticId := ⟨"cpu", .avg, longest, some "vm-1", some regions⟩
    let o : StatisticId := { s with window := .minutes 5 }
    (∀ z, s.zone = some z → z.IsPlain) ∧ s.window ≠ o.window ∧
      Duration.parse longest.text = .ok longest ∧ ofDocument? s.toDocument = some s ∧
      s.toDocument ≠ o.toDocument ∧ o.text ≠ s.text := by
  intro longest regions s o
  have read : ZoneSet.parse "us-east-1a,us-east-1b" = .ok regions := by decide +kernel
  have plain : ∀ z, s.zone = some z → z.IsPlain := by
    intro z same
    cases same
    exact ZoneSet.isPlain_of_parse read
  have different : s.window ≠ o.window := by decide
  obtain ⟨back, -, -, whole, apart, texts⟩ := window_kept longest s o
  have other := (window_kept (.minutes 5) s o).2.2.2.2.2
  exact ⟨plain, different, back, whole plain, (apart different).2, other different.symm⟩

end StatisticId

end Autoscaler
