import NetBridge.Cloud.Addressing

/-!
# Published clouds

The branch of `deserializePub` for compressed clouds,
`src/swarm_ros_bridge/src/topic_factory.cpp:380–421`. The Draco branch publishes what `Decode`
validates. The octree branch puts the dimensions of the message on the points that PCL decodes,
whatever their number; of PCL's `toROSMsg` it is assumed that it copies the dimensions and the
points of the cloud.
-/

namespace NetBridge.Cloud

open NetBridge.Base

/-- The memory of a `pcl::PointXYZ`. -/
structure PointXYZ where
  memory : Bytes
  size : memory.length = 16

/-- A `pcl::PointCloud<pcl::PointXYZ>`. -/
structure PclCloud where
  points : List PointXYZ
  width : UInt32
  height : UInt32

/-- The PCL library: `decodePointCloud`, unless it throws, and `toROSMsg`. -/
structure Pcl where
  decodePointCloud : Bytes → Option PclCloud
  toROSMsg : PclCloud → PointCloud2

/-- The message of `toROSMsg` has the dimensions of the cloud and all its points. -/
structure Pcl.Copies (pcl : Pcl) (cloud : PclCloud) : Prop where
  width : (pcl.toROSMsg cloud).width = cloud.width
  height : (pcl.toROSMsg cloud).height = cloud.height
  data : (pcl.toROSMsg cloud).data = cloud.points.flatMap PointXYZ.memory
  pointStep : (pcl.toROSMsg cloud).pointStep = 16
  rowStep : (pcl.toROSMsg cloud).rowStep = (pcl.toROSMsg cloud).pointStep * cloud.width

/-- The cloud that the octree branch hands to `toROSMsg`; `topic_factory.cpp:415–416`. -/
def redimensioned (compressed : PtCloudCompress) (cloud : PclCloud) : PclCloud :=
  { cloud with width := compressed.originalWidth, height := compressed.originalHeight }

/-- The message that `deserializePub` publishes of a compressed cloud, or `none` when it throws;
`topic_factory.cpp:383–420`. -/
def deserializeCompressed (draco : Draco) (pcl : Pcl) (compressed : PtCloudCompress)
    (now : RosTime) (message : PointCloud2) : Except Fault (Option PointCloud2) :=
  if compressed.codec = ascii "draco" then deserializeDraco draco compressed now message
  else
    match pcl.decodePointCloud compressed.compressedBytes with
    | none => .ok none
    | some cloud =>
      .ok (some { pcl.toROSMsg (redimensioned compressed cloud) with
        header := compressed.originalHeader })

/-- The number of points in a Draco payload; an empty cloud has none. -/
def dracoPoints (draco : Draco) (payload : Bytes) : Nat :=
  if payload = [] then 0
  else ((draco.decode payload).map fun cloud ↦ cloud.numPoints.toNat).getD 0

/-- The number of points in an octree payload. -/
def octreePoints (pcl : Pcl) (payload : Bytes) : Nat :=
  ((pcl.decodePointCloud payload).map fun cloud ↦ cloud.points.length).getD 0

/-- The number of points that the decoder of a compressed cloud returns. -/
def decodedPoints (draco : Draco) (pcl : Pcl) (compressed : PtCloudCompress) : Nat :=
  if compressed.codec = ascii "draco" then dracoPoints draco compressed.compressedBytes
  else octreePoints pcl compressed.compressedBytes

/-- A message carries that many points, in rows that hold them. -/
structure PointCloud2.WellFormed (message : PointCloud2) (points : Nat) : Prop where
  count : message.width.toNat * message.height.toNat = points
  size : message.data.length = message.rowStep.toNat * message.height.toNat
  row : message.width.toNat * message.pointStep.toNat ≤ message.rowStep.toNat

/-! ## The Draco branch -/

/-- What `Decode` returns is well formed. -/
theorem wellFormed_of_decodeCloud {draco : Draco} {input : EncodedPointCloud}
    {message : PointCloud2} (h : decodeCloud draco input = .ok message) :
    message.WellFormed (dracoPoints draco input.payload) := by
  obtain ⟨_, -, h⟩ := bind_eq_ok.mp h
  obtain ⟨data, -, h⟩ := bind_eq_ok.mp h
  obtain ⟨pointCount, hstorage, h⟩ := bind_eq_ok.mp h
  obtain ⟨hvalid, hcount⟩ :=
    validateMessageStorage_eq_some.mp (Checked.orReject_eq_ok.mp hstorage)
  unfold dracoPoints
  split at h
  · next hzero =>
    obtain ⟨_, hempty, h⟩ := bind_eq_ok.mp h
    cases h
    have hempty := Checked.require_eq_ok.mp hempty
    rw [Bool.and_eq_true, decide_eq_true_eq, decide_eq_true_eq] at hempty
    rw [if_pos hempty.1]
    refine ⟨?_, hempty.2.trans hvalid.size, hvalid.row⟩
    rw [← hcount, hzero]
    rfl
  · obtain ⟨layout, hparsed, h⟩ := bind_eq_ok.mp h
    obtain ⟨p, hl⟩ := parseLayout_realises (Checked.orReject_eq_ok.mp hparsed)
    obtain ⟨_, -, h⟩ := bind_eq_ok.mp h
    obtain ⟨_, -, h⟩ := bind_eq_ok.mp h
    obtain ⟨decoded, hsidecar, h⟩ := bind_eq_ok.mp h
    obtain ⟨_, hpayload, h⟩ := bind_eq_ok.mp h
    obtain ⟨cloud, hcloud, h⟩ := bind_eq_ok.mp h
    obtain ⟨attributes, hnamed, h⟩ := bind_eq_ok.mp h
    rw [if_neg (of_decide_eq_true (Checked.require_eq_ok.mp hpayload)),
      Checked.orReject_eq_ok.mp hcloud]
    rw [restoreSidecar_eq hvalid hl] at hsidecar
    split at hsidecar
    · cases hsidecar
      -- The sidecar keeps the storage, and so does the decoding loop.
      have hsize := (length_scatter (decodedMetadata input data).data
        (((decodedMetadata input data).grid hvalid).outside p.bytes) input.sidecarBytes).trans
        hvalid.size
      have hvalid' : PointCloud2.Valid { decodedMetadata input data with
          data := scatter (decodedMetadata input data).data
            (((decodedMetadata input data).grid hvalid).outside p.bytes) input.sidecarBytes } :=
        ⟨hvalid.empty, hvalid.row, hsize, hvalid.count, hvalid.step⟩
      obtain ⟨restored, hrestored, hlength⟩ := restorePoints_sized hvalid' hl hcount h
      rw [hrestored]
      exact ⟨hcount.symm.trans (numPoints_of_namedAttributes hnamed).symm,
        hlength.trans hvalid'.size, hvalid.row⟩
    · cases hsidecar

/-- What the Draco branch publishes is well formed. -/
theorem wellFormed_of_deserializeDraco {draco : Draco} {compressed : PtCloudCompress}
    {now : RosTime} {message published : PointCloud2}
    (h : deserializeDraco draco compressed now message = .ok (some published)) :
    published.WellFormed (dracoPoints draco compressed.compressedBytes) := by
  unfold deserializeDraco at h
  split at h
  · next decoded hdecode =>
    cases h
    unfold decode finish at hdecode
    dsimp only at hdecode
    split at hdecode
    · next value hvalue =>
      cases hdecode
      have hformed := wellFormed_of_decodeCloud hvalue
      exact ⟨hformed.count, hformed.size, hformed.row⟩
    · cases hdecode
    · cases hdecode
  · cases h
  · cases h

/-! ## The octree branch -/

private theorem length_memory (points : List PointXYZ) :
    (points.flatMap PointXYZ.memory).length = 16 * points.length := by
  induction points with
  | nil => rfl
  | cons point points ih =>
    rw [List.flatMap_cons, List.length_append, point.size, ih, List.length_cons]
    omega

/-- A cloud with the dimensions of the message is well formed if they give the number of its
points, and its rows have a length. -/
theorem wellFormed_toROSMsg_iff {pcl : Pcl} {cloud : PclCloud} (h : pcl.Copies cloud) :
    (pcl.toROSMsg cloud).WellFormed cloud.points.length ↔
      cloud.width.toNat * cloud.height.toNat = cloud.points.length ∧
        16 * cloud.width.toNat < 4294967296 := by
  have hwidth := cloud.width.toNat_lt
  have hstep : (pcl.toROSMsg cloud).rowStep.toNat = 16 * cloud.width.toNat % 4294967296 := by
    rw [h.rowStep, h.pointStep, UInt32.toNat_mul]
    rfl
  have hlength : (pcl.toROSMsg cloud).data.length = 16 * cloud.points.length := by
    rw [h.data, length_memory]
  have hpoint : (pcl.toROSMsg cloud).pointStep.toNat = 16 := by
    rw [h.pointStep]
    rfl
  constructor
  · intro hformed
    have hcount := hformed.count
    have hrow := hformed.row
    rw [h.width, h.height] at hcount
    rw [h.width, hpoint, hstep] at hrow
    refine ⟨hcount, ?_⟩
    omega
  · rintro ⟨hcount, hrow⟩
    have hexact : (pcl.toROSMsg cloud).rowStep.toNat = 16 * cloud.width.toNat := by
      rw [hstep, Nat.mod_eq_of_lt hrow]
    constructor
    · rw [h.width, h.height]
      exact hcount
    · rw [hlength, hexact, h.height, Nat.mul_assoc, hcount]
    · rw [h.width, hpoint, hexact]
      omega

/-- A published cloud is well formed exactly if it comes from Draco, or the dimensions of the
message give the number of points that the octree decoder returned, in rows whose length fits. -/
theorem published_wellFormed_iff {draco : Draco} {pcl : Pcl} {compressed : PtCloudCompress}
    {now : RosTime} {message published : PointCloud2}
    (hcopies : ∀ cloud, pcl.decodePointCloud compressed.compressedBytes = some cloud →
      pcl.Copies (redimensioned compressed cloud))
    (h : deserializeCompressed draco pcl compressed now message = .ok (some published)) :
    published.WellFormed (decodedPoints draco pcl compressed) ↔
      compressed.codec = ascii "draco" ∨
        (compressed.originalWidth.toNat * compressed.originalHeight.toNat =
            octreePoints pcl compressed.compressedBytes ∧
          16 * compressed.originalWidth.toNat < 4294967296) := by
  unfold deserializeCompressed at h
  unfold decodedPoints
  split at h
  · next hcodec =>
    rw [if_pos hcodec]
    exact ⟨fun _ ↦ Or.inl hcodec, fun _ ↦ wellFormed_of_deserializeDraco h⟩
  · next hcodec =>
    rw [if_neg hcodec]
    split at h
    · cases h
    · next cloud hdecode =>
      cases h
      have hpoints : octreePoints pcl compressed.compressedBytes = cloud.points.length := by
        rw [octreePoints, hdecode]
        rfl
      have hiff := wellFormed_toROSMsg_iff (hcopies cloud hdecode)
      rw [hpoints, or_iff_right hcodec]
      constructor
      · intro hformed
        exact hiff.mp ⟨hformed.count, hformed.size, hformed.row⟩
      · intro hdimensions
        have hformed := hiff.mpr hdimensions
        exact ⟨hformed.count, hformed.size, hformed.row⟩

private def noDraco : Draco := ⟨fun _ ↦ none, fun _ ↦ none⟩

/-- A decoder that returns one cloud, whatever it is given. -/
private def fixedPcl (cloud : PclCloud) : Pcl where
  decodePointCloud _ := some cloud
  toROSMsg cloud :=
    { width := cloud.width, height := cloud.height, pointStep := 16, rowStep := 16 * cloud.width
      data := cloud.points.flatMap PointXYZ.memory }

private theorem copies_fixedPcl (cloud cloud' : PclCloud) : (fixedPcl cloud).Copies cloud' :=
  ⟨rfl, rfl, rfl, rfl, rfl⟩

private def onePoint : PclCloud := ⟨[⟨List.replicate 16 0, rfl⟩], 0, 0⟩

/-- A decoder that merges all points of a cloud into one. -/
private def mergingPcl : Pcl := fixedPcl onePoint

private def fourPoints : PclCloud :=
  ⟨[⟨List.replicate 16 1, rfl⟩, ⟨List.replicate 16 2, rfl⟩, ⟨List.replicate 16 3, rfl⟩,
    ⟨List.replicate 16 4, rfl⟩], 0, 0⟩

/-- An octree cloud that was encoded from so many points in a row. -/
private def octreeCloud (points : UInt32) : PtCloudCompress where
  codec := ascii "pcl_octree"
  compressedBytes := [0]
  originalWidth := points
  originalHeight := 1

/-- Four points come back in two rows of two. -/
theorem published_wellFormed_iff_square :
    ∃ published, deserializeCompressed noDraco (fixedPcl fourPoints)
        { octreeCloud 2 with originalHeight := 2 } {} {} = .ok (some published) ∧
      published.data.length = 64 ∧ published.WellFormed 4 := by
  have h : deserializeCompressed noDraco (fixedPcl fourPoints)
      { octreeCloud 2 with originalHeight := 2 } {} {} =
        .ok (some ((fixedPcl fourPoints).toROSMsg { fourPoints with width := 2, height := 2 })) :=
    rfl
  refine ⟨_, h, rfl, ?_⟩
  exact (published_wellFormed_iff (fun cloud _ ↦ copies_fixedPcl _ _) h).mpr
    (Or.inr (by decide))

/-- Two points that the codec merges leave a message of width two with one point. -/
theorem octree_not_wellFormed :
    mergingPcl.Copies (redimensioned (octreeCloud 2) onePoint) ∧
      ∃ published, deserializeCompressed noDraco mergingPcl (octreeCloud 2) {} {} =
          .ok (some published) ∧
        ¬published.WellFormed (decodedPoints noDraco mergingPcl (octreeCloud 2)) := by
  refine ⟨copies_fixedPcl _ _, _, rfl, ?_⟩
  intro hformed
  have hsize := hformed.size
  revert hsize
  decide

end NetBridge.Cloud
