import ClusterUpgrade.Load
import ClusterUpgrade.Proofs.Document
import ClusterUpgrade.Proofs.Topology

/-!
# What is loaded

A document of a JSON file is in record order, and so is one of a YAML file where the reader of YAML
gives no other documents (`Document.YamlReader.Ordered`). So a topology that is loaded is an
accepted one (`Files.accepted_of_topology`).
-/

namespace ClusterUpgrade

/-- The documents that a reader gives are in order. -/
def Document.YamlReader.Ordered (yaml : YamlReader) : Prop :=
  ∀ style text d, yaml style text = .ok d → d.inOrder

namespace Files

variable {f : Files} {yaml : Document.YamlReader} {style : Document.NumberStyle} {path : String}
  {base : Option String}

theorem eq_ok_of_mapError {ε ε' α : Type} {r : Except ε α} {f : ε → ε'} {a : α}
    (h : r.mapError f = .ok a) : r = .ok a := by
  cases r with
  | error e => cases h
  | ok b => exact congrArg Except.ok (Except.ok.inj h)

section Ordered

variable (ordered : yaml.Ordered)

include ordered

/-- The document of a file is in order, in either format. -/
theorem inOrder_of_document {d : Document} (h : f.document yaml style path = .ok d) :
    d.inOrder := by
  unfold document at h
  split at h
  · cases h
  · cases h
  · have read := eq_ok_of_mapError h
    split at read
    · exact Document.Json.inOrder_of_read (eq_ok_of_mapError read)
    · exact ordered _ _ _ read

/-- A topology that is loaded comes from a document in order. -/
theorem exists_document_of_topology {t : Topology} (h : f.topology yaml path base = .ok t) :
    ∃ d : Document, d.inOrder ∧ (Topology.check d).value = some t := by
  unfold topology at h
  obtain ⟨d, hd, h⟩ := Document.exists_of_bind_eq_ok h
  refine ⟨d, inOrder_of_document ordered hd, ?_⟩
  unfold Topology.ofDocument at h
  dsimp only at h
  split at h
  · next accepted =>
    obtain rfl := Except.ok.inj h
    exact accepted
  · cases h

/-- A topology that is loaded is an accepted one. -/
theorem accepted_of_topology {t : Topology} (h : f.topology yaml path base = .ok t) :
    t.Accepted := by
  obtain ⟨d, ordered, accepted⟩ := exists_document_of_topology ordered h
  have distinct := Document.distinctNames_of_inOrder d ordered
  exact Topology.accepted_of_check accepted (fun _ => Document.nodup_of_field? distinct)
    fun _ => Document.nodup_of_field? distinct

end Ordered

end Files

end ClusterUpgrade
