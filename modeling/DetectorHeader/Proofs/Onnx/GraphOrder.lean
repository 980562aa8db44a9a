/-
The order in which a graph lists its operations and its constants does not
matter (`Model.encode_load_reordered`).

Both are looked up by name: an operation as the first one that gives a value,
a constant as the last one of its name. Where at most one of either can be
meant, first and last are the same in every order, and so is all that a lookup
leads to: which inputs are retained, the quantization of an output, and the
warnings on the way.
-/
import DetectorHeader.Proofs.Onnx.Loader

namespace DetectorHeader.Onnx

open Protobuf Recorded

/-- No name is among the outputs of two different operations. -/
def Graph.SingleProducers (g : Graph) : Prop :=
  ∀ m ∈ g.node, ∀ n ∈ g.node, ∀ name ∈ m.output, name ∈ n.output → m = n

/-- No two constants have the same name, other than the empty one. -/
def Graph.SingleConstants (g : Graph) : Prop :=
  ∀ s ∈ g.initializer, ∀ t ∈ g.initializer,
    s.name.getD "" ≠ "" → s.name = t.name → s = t

instance (g : Graph) : Decidable g.SingleProducers :=
  inferInstanceAs (Decidable (∀ m ∈ g.node, _))

instance (g : Graph) : Decidable g.SingleConstants :=
  inferInstanceAs (Decidable (∀ s ∈ g.initializer, _))

/-- The second graph has the same inputs and outputs, and the same operations
and constants in any order. Of the values in between it may say anything. -/
structure Graph.Reordered (g g' : Graph) : Prop where
  node : g'.node.Perm g.node
  initializer : g'.initializer.Perm g.initializer
  input : g'.input = g.input
  output : g'.output = g.output

/-- The second model says the same of itself, and has the graph of the first
one with operations and constants in any order. -/
structure Model.Reordered (m m' : Model) : Prop where
  modelVersion : m'.modelVersion = m.modelVersion
  producerName : m'.producerName = m.producerName
  producerVersion : m'.producerVersion = m.producerVersion
  graph : Option.Rel Graph.Reordered m.graph m'.graph

-- ================================================================== lookups

namespace Graph

variable {g g' : Graph}

/-- With one operation for each value it is found wherever it stands. -/
theorem producer?_of_reordered (h : g.Reordered g')
    (hsingle : g.SingleProducers) (name : String) :
    g'.producer? name = g.producer? name := by
  unfold producer?
  refine (List.find?_eq_find?_of_perm h.node.symm ?_).symm
  rintro m ⟨hm, hmname⟩ n ⟨hn, hnname⟩
  rw [List.contains_iff_mem] at hmname hnname
  exact hsingle m hm n hn name hmname hnname

/-- With one constant for each name it is found wherever it stands. -/
theorem constant?_of_reordered (h : g.Reordered g')
    (hsingle : g.SingleConstants) (name : String) :
    g'.constant? name = g.constant? name := by
  unfold constant?
  by_cases hname : name = ""
  · rw [if_pos hname, if_pos hname]
  · rw [if_neg hname, if_neg hname]
    have hperm : g.initializer.reverse.Perm g'.initializer.reverse :=
      (g.initializer.reverse_perm.trans h.initializer.symm).trans
        g'.initializer.reverse_perm.symm
    refine (List.find?_eq_find?_of_perm hperm ?_).symm
    rintro s ⟨hs, hsname⟩ t ⟨ht, htname⟩
    rw [List.mem_reverse] at hs ht
    replace hsname : s.name = some name := of_decide_eq_true hsname
    replace htname : t.name = some name := of_decide_eq_true htname
    refine hsingle s hs t ht ?_ (hsname.trans htname.symm)
    rw [hsname]
    exact hname

-- ============================================================ what they give

/-- Graphs in which the same is found by every name. -/
structure Resolve (g g' : Graph) : Prop where
  producer : ∀ name, g'.producer? name = g.producer? name
  constant : ∀ name, g'.constant? name = g.constant? name

/-- So all names lead to the same as before. -/
theorem resolve_of_reordered (h : g.Reordered g')
    (hproducers : g.SingleProducers) (hconstants : g.SingleConstants) :
    Resolve g g' :=
  ⟨producer?_of_reordered h hproducers, constant?_of_reordered h hconstants⟩

namespace Resolve

theorem parameter (h : Resolve g g') : g'.parameter = g.parameter := by
  funext operation parameter name output
  unfold Graph.parameter
  rw [h.constant]

/-- Quantizations are found by names alone. -/
theorem quantization (h : Resolve g g') : g'.quantization = g.quantization := by
  funext name
  unfold Graph.quantization
  rw [h.producer, h.parameter]

/-- And so are the inputs that are constants. -/
theorem isFed (h : Resolve g g') : g'.isFed = g.isFed := by
  funext v
  unfold Graph.isFed
  rw [h.constant]

end Resolve

end Graph

-- =================================================================== models

/-- Models whose graphs are reordered are loaded alike. -/
theorem Metadata.ofModel_of_reordered {m m' : Model} (h : m.Reordered m')
    (hsingle : ∀ g, m.graph = some g → g.SingleProducers ∧ g.SingleConstants) :
    ofModel m' = ofModel m := by
  refine ofModel_congr h.modelVersion h.producerName h.producerVersion h.graph
    fun g g' hg hreordered => ?_
  obtain ⟨hproducers, hconstants⟩ := hsingle g hg
  have hresolve :=
    Graph.resolve_of_reordered hreordered hproducers hconstants
  exact ⟨hreordered.input, hreordered.output, hresolve.isFed,
    hresolve.quantization⟩

/-- Where no value is given by two operations, and no two constants share a
name, the bytes of a model with these in another order are loaded as the same,
with the same log, or are not loaded for the same reason. Both models are as
long as a length can tell, which holds of all that are in a memory. -/
theorem Model.encode_load_reordered {m m' : Model} (h : m.Reordered m')
    (hsingle : ∀ g, m.graph = some g → g.SingleProducers ∧ g.SingleConstants)
    (hm : m.encode.length < 0x10000000000000000)
    (hm' : m'.encode.length < 0x10000000000000000) :
    Metadata.ofBytes m'.encode = Metadata.ofBytes m.encode := by
  rw [Metadata.ofBytes_encode hm, Metadata.ofBytes_encode hm']
  exact Metadata.ofModel_of_reordered h hsingle

/-- A graph value of single precision. -/
def plainValue (name : String) : ValueInfo where
  name := some name
  type := some { tensor := some { elementType := some 1 } }

/-- Two outputs from operations of which one is quantized per channel, and two
constants without a name. -/
def twoOutputs : Graph where
  node := [
    { input := ["p", "s"], output := ["y"], opType := some "QuantizeLinear" },
    { input := ["q", "t"], output := ["z", ""]
      opType := some "DequantizeLinear" }]
  initializer := [
    { name := some "s", dataType := some 1, floatData := [⟨0x3F000000⟩] },
    { name := some "t", dataType := some 1
      floatData := [⟨0x3F000000⟩, ⟨0x3E800000⟩] },
    { name := some "", dataType := some 1 },
    { name := some "" }]
  input := [plainValue "x", plainValue "s"]
  output := [plainValue "z", plainValue "y"]

/-- The same graph from its end to its start, with a value in between. -/
def twoOutputsReversed : Graph :=
  { twoOutputs with
    node := twoOutputs.node.reverse
    initializer := twoOutputs.initializer.reverse
    valueInfo := [plainValue "p"] }

/-- Two outputs with operations of their own, in the one order and in the other.
-/
theorem twoOutputs_load_reordered :
    Metadata.ofBytes (Model.encode { graph := some twoOutputsReversed })
      = Metadata.ofBytes (Model.encode { graph := some twoOutputs }) := by
  refine Model.encode_load_reordered
    ⟨rfl, rfl, rfl, .some ⟨List.reverse_perm _, List.reverse_perm _, rfl, rfl⟩⟩
    (fun g hg => ?_) (by decide +kernel) (by decide +kernel)
  cases hg
  decide

end DetectorHeader.Onnx
