/-
A model that has been written is read back (`WholeModel.encode_reads_back`).

Each kind of table has one lemma: where it is written, its value is spelled.
The lemmas follow the writers: what a table refers to has been written before,
and the slots of the table lead there.
-/
import DetectorHeader.Proofs.FlatBuffer.Written
import DetectorHeader.Proofs.Tflite.Load
import DetectorHeader.Tflite.Build
import DetectorHeader.Tflite.Read

namespace DetectorHeader.Tflite

open FlatBuffer

-- =================================================================== tables

namespace Build

open FlatBuffer.Build Builder

theorem int32_toNat (n : Int32) : Read.int32 n.toUInt32.toNat = n := by
  simp [Read.int32]

/-- A vector of 32-bit integers is written where it can be read. -/
theorem int32s_writes (items : List Int32) (b : Builder) :
    b.Writes (int32s items)
      (Wrote (FlatBuffer.Check.vector .i32) Read.int32s int32sLoad items) :=
  numbers_writes (s := .i32) int32_toNat (fun a => a.toUInt32.toNat_lt) items b

/-- So is one of scales, by their bit patterns. -/
theorem scales_writes (items : List Binary32) (b : Builder) :
    b.Writes (vector 4 (items.map (·.bits.toNat)))
      (Wrote (FlatBuffer.Check.vector .f32)
        (FlatBuffer.Read.vector .f32 fun n => ⟨UInt32.ofNat n⟩)
        (fun items => .vector .f32 items.length) items) :=
  numbers_writes (s := .f32) (fun a => by simp)
    (fun a => a.bits.toNat_lt) items b

/-- And one of zero points, which have eight bytes each. -/
theorem zeroPoints_writes (items : List Int64) (b : Builder) :
    b.Writes (vector 8 (items.map (·.toUInt64.toNat)))
      (Wrote (FlatBuffer.Check.vector .i64)
        (FlatBuffer.Read.vector .i64 Read.int64)
        (fun items => .vector .i64 items.length) items) :=
  numbers_writes (s := .i64) (fun a => by simp [Read.int64])
    (fun a => a.toUInt64.toNat_lt) items b

/-- The slots of a quantization fit in a vtable. -/
theorem quantization_slots : SlotsFit [Vtable.quantizationDimension,
    Vtable.quantizationZeroPoint, Vtable.quantizationScale] :=
  ⟨by decide, by decide, by decide⟩

/-- A quantization is written where it can be read: the two vectors come first,
and the table leads to them. -/
theorem quantization_writes (q : QuantizationTable) (b : Builder) :
    b.Writes (quantization q) (Wrote Check.quantization Read.quantization
      QuantizationTable.load q) := by
  refine (optional_writes scales_writes).bind fun scale b1 _ hscale => ?_
  refine (optional_writes zeroPoints_writes).bind
    fun zeroPoint b2 hgrow hzeroPoint => ?_
  -- The vectors are kept while more is written, and the table leads to them.
  replace hscale := hscale.grow hgrow
  have hdimension := number_holds (b := b2) (s := .i32) (rfl : _ = 4)
    q.quantizedDimension.toUInt32.toNat_lt
  simp only [number?_eq, offset?_eq, fieldsOf_append, List.cons_append,
    List.nil_append]
  refine table_writes_value quantization_slots ?_ rfl ?_
    fun whole t hwhole hcells htable => ?_
  · simp only [List.forall_mem_cons]
    exact ⟨hdimension.ready, hzeroPoint.ready, hscale.ready, by simp⟩
  · simp only [List.map_cons, List.map_nil,
      Option.isSome_map, hzeroPoint.present, hscale.present]
    exact List.reverse_perm [_, _, _]
  · -- the fields pass in the order of the schema, and are read by their slots
    have hscale' := hscale.spells hwhole
      (hcells Vtable.quantizationScale _ (by simp))
    have hzeroPoint' := hzeroPoint.spells hwhole
      (hcells Vtable.quantizationZeroPoint _ (by simp))
    have hdimension' := hdimension.spells hwhole
      (hcells Vtable.quantizationDimension _ (by simp))
    refine ⟨.cons (hscale'.passes _) (.cons (hzeroPoint'.passes _)
      (.cons (hdimension'.passes _) .nil)), ?_⟩
    have hread := hdimension'.readD_eq Read.int32 rfl
    rw [int32_toNat] at hread
    unfold Read.quantization
    simp only [htable, hscale'.read_eq, hzeroPoint'.read_eq, hread,
      Option.bind_eq_bind, Option.bind_some]
    rfl

/-- The slots of a tensor fit in a vtable. -/
theorem tensor_slots : SlotsFit [Vtable.tensorShapeSignature,
    Vtable.tensorQuantization, Vtable.tensorName, Vtable.tensorBuffer,
    Vtable.tensorShape, Vtable.tensorType] :=
  ⟨by decide, by decide, by decide⟩

/-- A tensor is written where it can be read, behind everything it refers to. -/
theorem tensor_writes (t : Tensor) (b : Builder) :
    b.Writes (tensor t) (Wrote Check.tensor Read.tensor Tensor.load t) := by
  -- What the table refers to is written first, each part with a builder of its
  -- own to look at.
  refine (optional_writes quantization_writes).bind
    fun quantization b1 _ hquantization => ?_
  refine (optional_writes int32s_writes).bind fun shape b2 hgrow2 hshape => ?_
  refine (optional_writes int32s_writes).bind
    fun signature b3 hgrow3 hsignature => ?_
  refine (optional_writes text_writes).bind fun name b4 hgrow4 hname => ?_
  -- All four are still there when the table is written.
  replace hsignature := hsignature.grow hgrow4
  replace hshape := hshape.grow (hgrow3.trans hgrow4)
  replace hquantization :=
    hquantization.grow (hgrow2.trans (hgrow3.trans hgrow4))
  have hbuffer := number_holds (b := b4) (s := .u32) (rfl : _ = 4)
    t.buffer.toNat_lt
  have htype := number_holds (b := b4) (s := .i8) (rfl : _ = 1)
    t.type.toUInt8.toNat_lt
  -- Fields that are absent or have their default are cells without contents.
  simp only [number?_eq, offset?_eq, fieldsOf_append, List.cons_append,
    List.nil_append]
  refine table_writes_value tensor_slots ?_ rfl ?_
    fun whole table hwhole hcells htable => ?_
  · simp only [List.forall_mem_cons]
    exact ⟨hsignature.ready, hquantization.ready, hname.ready, hbuffer.ready,
      hshape.ready, htype.ready, by simp⟩
  · -- as many slots are filled as fields are verified, in another order
    simp only [List.map_cons, List.map_nil, Option.isSome_map,
      hsignature.present, hquantization.present, hname.present, hshape.present]
    exact (List.reverse_perm [_, _, _, _, _, _]).trans (.swap _ _ _)
  · -- the finished buffer has each field in its slot
    have hshape' := hshape.spells hwhole
      (hcells Vtable.tensorShape _ (by simp))
    have htype' := htype.spells hwhole (hcells Vtable.tensorType _ (by simp))
    have hbuffer' := hbuffer.spells hwhole
      (hcells Vtable.tensorBuffer _ (by simp))
    have hname' := hname.spells hwhole (hcells Vtable.tensorName _ (by simp))
    have hquantization' := hquantization.spells hwhole
      (hcells Vtable.tensorQuantization _ (by simp))
    have hsignature' := hsignature.spells hwhole
      (hcells Vtable.tensorShapeSignature _ (by simp))
    refine ⟨.cons (hshape'.passes _) (.cons (htype'.passes _)
      (.cons (hbuffer'.passes _) (.cons (hname'.passes _)
      (.cons (hquantization'.passes _)
      (.cons (hsignature'.passes _) .nil))))), ?_⟩
    -- A default is read from an empty slot as it is from a full one.
    have hreadType := htype'.readD_eq (fun n => (UInt8.ofNat n).toInt8) rfl
    have hreadBuffer := hbuffer'.readD_eq UInt32.ofNat rfl
    unfold Read.tensor
    simp only [htable, hshape'.read_eq, hreadType, hreadBuffer, hname'.read_eq,
      hquantization'.read_eq, hsignature'.read_eq, Option.bind_eq_bind,
      Option.bind_some, UInt8.ofNat_toNat, UInt32.ofNat_toNat,
      Int8.toInt8_toUInt8]
    rfl

/-- The slots of a subgraph fit in a vtable. -/
theorem subgraph_slots : SlotsFit [Vtable.subgraphName,
    Vtable.subgraphOutputs, Vtable.subgraphInputs, Vtable.subgraphTensors] :=
  ⟨by decide, by decide, by decide⟩

/-- A subgraph is written where it can be read, and its tensors before it. -/
theorem subgraph_writes (g : Subgraph Tensor) (b : Builder) :
    b.Writes (subgraph g)
      (Wrote Check.subgraph (Read.subgraph Read.tensor) Subgraph.load g) := by
  refine (optional_writes (list_writes tensor_writes)).bind
    fun tensors b1 _ htensors => ?_
  refine (optional_writes int32s_writes).bind
    fun inputs b2 hgrow2 hinputs => ?_
  refine (optional_writes int32s_writes).bind
    fun outputs b3 hgrow3 houtputs => ?_
  refine (optional_writes text_writes).bind fun name b4 hgrow4 hname => ?_
  -- As with a tensor, what has been written stays where it is.
  replace houtputs := houtputs.grow hgrow4
  replace hinputs := hinputs.grow (hgrow3.trans hgrow4)
  replace htensors := htensors.grow (hgrow2.trans (hgrow3.trans hgrow4))
  simp only [offset?_eq, fieldsOf_append, List.cons_append, List.nil_append]
  refine table_writes_value subgraph_slots ?_ rfl ?_
    fun whole table hwhole hcells htable => ?_
  · simp only [List.forall_mem_cons]
    exact ⟨hname.ready, houtputs.ready, hinputs.ready, htensors.ready, by simp⟩
  · simp only [List.map_cons, List.map_nil, Option.isSome_map, hname.present,
      houtputs.present, hinputs.present, htensors.present]
    exact List.reverse_perm [_, _, _, _]
  · have htensors' := htensors.spells hwhole
      (hcells Vtable.subgraphTensors _ (by simp))
    have hinputs' := hinputs.spells hwhole
      (hcells Vtable.subgraphInputs _ (by simp))
    have houtputs' := houtputs.spells hwhole
      (hcells Vtable.subgraphOutputs _ (by simp))
    have hname' := hname.spells hwhole (hcells Vtable.subgraphName _ (by simp))
    refine ⟨.cons (htensors'.passes _) (.cons (hinputs'.passes _)
      (.cons (houtputs'.passes _) (.cons (hname'.passes _) .nil))), ?_⟩
    unfold Read.subgraph
    simp only [htable, htensors'.read_eq, hinputs'.read_eq, houtputs'.read_eq,
      hname'.read_eq, Option.bind_eq_bind, Option.bind_some]
    rfl

/-- The slots of a model fit in a vtable. -/
theorem model_slots : SlotsFit [Vtable.modelDescription,
    Vtable.modelSubgraphs, Vtable.modelVersion] :=
  ⟨by decide, by decide, by decide⟩

/-- A model is written where it can be read, and the buffer is aligned for the
offset that stands before it. -/
theorem model_writes (m : WholeModel) (b : Builder) :
    b.Writes (model m) fun r b' => 4 ∣ b'.alignment
      ∧ b'.Wrote Check.model (Read.model (Read.subgraph Read.tensor))
        WholeModel.load m r := by
  refine (optional_writes (list_writes subgraph_writes)).bind
    fun subgraphs b1 _ hsubgraphs => ?_
  refine (optional_writes text_writes).bind
    fun description b2 hgrow2 hdescription => ?_
  replace hsubgraphs := hsubgraphs.grow hgrow2
  have hversion := number_holds (b := b2) (s := .u32) (rfl : _ = 4)
    m.version.toNat_lt
  simp only [number?_eq, offset?_eq, fieldsOf_append, List.cons_append,
    List.nil_append]
  -- The model is written last, so the alignment matters for the offset to it.
  refine table_writes_aligned model_slots ?_ rfl ?_
    fun whole table hwhole hcells htable => ?_
  · simp only [List.forall_mem_cons]
    exact ⟨hdescription.ready, hsubgraphs.ready, hversion.ready, by simp⟩
  · simp only [List.map_cons, List.map_nil, Option.isSome_map,
      hdescription.present, hsubgraphs.present]
    exact List.reverse_perm [_, _, _]
  · have hversion' := hversion.spells hwhole
      (hcells Vtable.modelVersion _ (by simp))
    have hsubgraphs' := hsubgraphs.spells hwhole
      (hcells Vtable.modelSubgraphs _ (by simp))
    have hdescription' := hdescription.spells hwhole
      (hcells Vtable.modelDescription _ (by simp))
    refine ⟨.cons (hversion'.passes _) (.cons (hsubgraphs'.passes _)
      (.cons (hdescription'.passes _) .nil)), ?_⟩
    have hreadVersion := hversion'.readD_eq UInt32.ofNat rfl
    unfold Read.model
    simp only [htable, hreadVersion, hsubgraphs'.read_eq,
      hdescription'.read_eq, Option.bind_eq_bind, Option.bind_some,
      UInt32.ofNat_toNat]
    rfl

end Build

-- =================================================================== models

/-- The bounds on a model that is written to be read again: on the bytes of a
buffer that can be built, and on the work of verifying it. -/
structure WholeModel.WithinLimits (m : WholeModel) : Prop where
  length : m.encode.length ≤ maxLength
  bytes : (Load.offsetTo m.load).bytes ≤ maxApparentSize
  tables : (Load.offsetTo m.load).tables ≤ maxTables

/-- The limits leave room for a model that is within its bounds. -/
theorem WholeModel.WithinLimits.fits {m : WholeModel} (h : m.WithinLimits) :
    (Load.offsetTo m.load).Fits {} := by
  refine ⟨?_, ?_, ?_⟩
  · show 0 + _ ≤ _
    rw [Nat.zero_add]
    exact h.bytes
  · show 0 + _ ≤ _
    rw [Nat.zero_add]
    exact h.tables
  · have hdepth : (Load.offsetTo m.load).depth ≤ 4 :=
      Nat.max_le.mpr ⟨Nat.zero_le 4, m.depth_load_le⟩
    show 0 + (Load.offsetTo m.load).depth ≤ 64
    omega

/-- At the start of the bytes of a model stands the offset to it, and behind
that the identifier. -/
theorem WholeModel.encode_spells {m : WholeModel}
    (h : m.encode.length ≤ maxLength) :
    Spells Check.root (FlatBuffer.Read.offsetTo
        (Read.model (Read.subgraph Read.tensor)))
        m.encode.toArray 0 m (.offsetTo m.load)
      ∧ Buffer.Has m.encode.toArray 4 identifier := by
  have hwrites : ({} : Builder).Writes
      (do FlatBuffer.Build.finish identifier (← Build.model m))
      fun _ b' => b'.alignment ∣ b'.used ∧ ∃ root,
        b'.Stored b'.used (Builder.LeadsTo root)
          ∧ b'.Wrote Check.model (Read.model (Read.subgraph Read.tensor))
            WholeModel.load m root
          ∧ b'.Stored (b'.used - 4) fun B position =>
            B.Has position identifier := by
    refine (Build.model_writes m {}).bind fun root b1 _ hmodel => ?_
    obtain ⟨hfour, hmodel⟩ := hmodel
    refine (finish_writes hmodel.1 hfour rfl).imp fun _ b2 hgrow hfinish => ?_
    obtain ⟨hdvd, hroot, hidentifier⟩ := hfinish
    exact ⟨hdvd, root, hroot, Builder.Stored.grow hmodel hgrow, hidentifier⟩
  obtain ⟨a, b, hrun, -, -, hdvd, root, hroot, hmodel, hidentifier⟩ :=
    hwrites Builder.sound_empty
  have hbytes : m.encode = b.bytes := congrArg (·.2.bytes) hrun
  rw [hbytes] at h ⊢
  -- The buffer is complete as it is.
  have hwhole : b.CompletedBy b.bytes := by
    refine ⟨List.suffix_rfl, ?_, h⟩
    rwa [← b.used_eq]
  have hstart : b.bytes.length - b.used = 0 := by
    rw [b.used_eq, Nat.sub_self]
  obtain ⟨n, hnumber, htarget⟩ := hroot.2 _ hwhole
  rw [hstart] at hnumber htarget
  have hsize : 0 + 4 ≤ b.bytes.length := by
    have hinside := hnumber.inside
    rwa [Buffer.size_ofArray, List.size_toArray] at hinside
  refine ⟨Spells.offsetTo hnumber ?_, ?_⟩
  · rw [htarget, Buffer.size_ofArray, List.size_toArray]
    exact hmodel.2 _ hwhole
  · have hfour : b.bytes.length - (b.used - 4) = 4 := by
      rw [b.used_eq]
      omega
    have hhas := hidentifier.2 _ hwhole
    rwa [hfour] at hhas

/-- The identifier stands behind the offset to the model. -/
theorem WholeModel.hasIdentifier_encode {m : WholeModel}
    (h : m.encode.length ≤ maxLength) : hasIdentifier m.encode = true := by
  obtain ⟨before, after, hsplit, hlength⟩ :=
    Buffer.has_ofArray_iff.mp (encode_spells h).2
  unfold hasIdentifier
  rw [hsplit, ← hlength, List.drop_left]
  apply decide_eq_true
  rw [hlength]
  exact List.take_left' rfl

/-- The work of verifying a model is the load of its value, so one within limits
passes. -/
theorem WholeModel.verify_encode {m : WholeModel} (h : m.WithinLimits) :
    verify m.encode.toArray = .ok () :=
  verify_eq_ok_iff.mpr ⟨_, (encode_spells h.length).1.passes {} h.fits⟩

/-- And it is read back. -/
theorem WholeModel.decode_encode {m : WholeModel} (h : m.WithinLimits) :
    decode m.encode = .ok m := by
  have hread : Read.root (Read.subgraph Read.tensor) m.encode.toArray
      = some m := (encode_spells h.length).1.read
  unfold decode ofBuffer
  rw [verify_encode h, hread]
  rfl

/-- A model is written with the identifier, the bytes pass verification, and
the same model is read back from them: what was absent is absent, and a
version that was not given is the current one. -/
theorem WholeModel.encode_reads_back (version : Option UInt32)
    (description : Option String)
    (subgraphs : Option (List (Subgraph Tensor)))
    (h : (ofParts version description subgraphs).WithinLimits) :
    hasIdentifier (ofParts version description subgraphs).encode = true
      ∧ verify (ofParts version description subgraphs).encode.toArray = .ok ()
      ∧ decode (ofParts version description subgraphs).encode
        = .ok { version := version.getD 3, description, subgraphs } :=
  ⟨hasIdentifier_encode h.length, verify_encode h, decode_encode h⟩

/-- A quantized tensor that is input and output at once. -/
def sampleSubgraph : Subgraph Tensor where
  inputs := some [0]
  outputs := some [0]
  tensors := some [{
    name := some "logits"
    shape := some [1, 10]
    type := 9
    quantization := some {
      scale := some [⟨0x3E800000⟩]
      zeroPoint := some [3] } }]

/-- A model with one subgraph, which has neither a description nor a version. -/
theorem sampleSubgraph_reads_back :
    hasIdentifier
        (WholeModel.ofParts none none (some [sampleSubgraph])).encode = true
      ∧ verify (WholeModel.ofParts none none
        (some [sampleSubgraph])).encode.toArray = .ok ()
      ∧ WholeModel.decode
          (WholeModel.ofParts none none (some [sampleSubgraph])).encode
        = .ok { version := 3, subgraphs := some [sampleSubgraph] } :=
  WholeModel.encode_reads_back none none (some [sampleSubgraph])
    ⟨by decide +kernel, by decide +kernel, by decide +kernel⟩

end DetectorHeader.Tflite
