import FileSharing.Database.Completion
import FileSharing.Database.Layout

/-! The messages of types 2 and 3 that a job in S-2 gets: their bytes, and what a reader of
`jobdata` finds in them. -/

namespace FileSharing

open Library RunJobs

namespace Chunks

/-- The fields that `GET_FILES_FROM_CHUNKS` reads. -/
def chunkIndex (data : Bytea) : Sql Int := int4in (encode (substr data 115 8))

def chunkParent (data : Bytea) : Text := encode (substr data 123 36)

def chunkPayload (data : Bytea) : Sql Bytea := do
  let size ← int4in (encode (substr data 159 10))
  return substr data 169 size.toNat

def infoParent (data : Bytea) : Text := encode (substr data 115 36)

def infoSize (data : Bytea) : Sql Int := int4in (encode (substr data 151 12))

/-- The messages for one row of the joins; the numbers choose their UUIDs. -/
def splitJob (env : Env) (row : File × Job × SysInfo) (numbers : List Nat) (number : Nat) :
    Sql (List Job × Job) := do
  let chunks ← chunkInfo row
  let jobs ← (chunks.zip numbers).mapM (chunkMessage env)
  let info ← infoMessage env (row, number)
  return (jobs, info)

/-- `ceil(length / (capacity - 172))`. -/
def chunkTotal (length : Nat) (capacity : Int) : Nat :=
  (length + (capacity - 172).toNat - 1) / (capacity - 172).toNat

/-- The messages are those that a file of this content needs. -/
structure Layout (capacity : Int) (file : Bytea) (parent : Uuid) (chunks : List Job) (info : Job) :
    Prop where
  count : chunks.length = chunkTotal file.length capacity
  types : ∀ job ∈ chunks, messageType job.jobdata = typeField "2"
  infoType : messageType info.jobdata = typeField "3"
  size : ∀ job ∈ info :: chunks, (job.jobdata.length : Int) = capacity
  reassembled : ∃ order : List Job, order.Perm chunks ∧
    order.mapM (fun job => chunkIndex job.jobdata) =
      .ok ((List.range (chunkTotal file.length capacity)).map Int.ofNat) ∧
    ∃ parts, order.mapM (fun job => chunkPayload job.jobdata) = .ok parts ∧ parts.flatten = file
  infoSize : infoSize info.jobdata = .ok file.length
  infoCount : chunkCount info.jobdata = .ok (chunkTotal file.length capacity)
  parents : ∀ job ∈ chunks, chunkParent job.jobdata = parent.text
  infoParent : infoParent info.jobdata = parent.text
  rows : ∀ job ∈ info :: chunks, job.jparentJobid = parent

section Total

theorem ceilDiv_total {length : Nat} {capacity : Int} (large : 172 < capacity) :
    ceilDiv length (capacity - 172) = .ok (chunkTotal length capacity) := by
  have positive : 0 < capacity - 172 := by omega
  rw [ceilDiv, if_neg (by omega), chunkTotal]
  congr 1
  rw [Int.fdiv_eq_ediv_of_nonneg _ (by omega)]
  obtain ⟨size, same⟩ := Int.eq_ofNat_of_zero_le (by omega : 0 ≤ capacity - 172)
  rw [same, Int.toNat_natCast, Int.natCast_ediv]
  have low := Nat.div_mul_le_self (length + size - 1) size
  have high := Nat.lt_div_mul_add (by omega : 0 < size) (a := length + size - 1)
  have quotient : -(length : Int) / (size : Int) = -(((length + size - 1 : Nat) : Int) / size) := by
    rw [Int.ediv_eq_iff_of_pos (by omega), ← Int.natCast_ediv]
    generalize (length + size - 1) / size = q at low high
    have product : -(q : Int) * size = -((q * size : Nat) : Int) := by push_cast; ring
    rw [product]
    omega
  omega

theorem chunkTotal_bounds {length : Nat} {capacity : Int} (large : 172 < capacity)
    (long : (length : Int) > capacity - 172) : 2 ≤ chunkTotal length capacity ∧
      length ≤ chunkTotal length capacity * (capacity - 172).toNat := by
  obtain ⟨size, same⟩ := Int.eq_ofNat_of_zero_le (by omega : 0 ≤ capacity - 172)
  rw [chunkTotal, same, Int.toNat_natCast]
  have low : 2 ≤ (length + size - 1) / size := by
    rw [Nat.le_div_iff_mul_le (by omega)]
    omega
  have high := Nat.lt_div_mul_add (by omega : 0 < size) (a := length + size - 1)
  exact ⟨low, by omega⟩

variable {env : Env}

theorem messageJob_total {now : Timestamp} {id : Uuid} {type source destination priority : Text}
    {subheader messaget mdata : Bytea} {capacity : Option Int} (js : Job)
    (sealing : createMessage now id.text type subheader messaget source destination priority
      capacity = .ok mdata) : ∃ job, messageJob mdata type js = .ok job := by
  simp only [messageJob, messageUuid_createMessage sealing, bind, Except.bind, pure, Except.pure]
  exact ⟨_, rfl⟩

theorem natText_eq (n : Nat) : natText n = intText n := by simp [intText]

theorem number_field {n width : Nat} (positive : 0 < width) (bound : n < 10 ^ width)
    (small : n ≤ maxField) : int4in (encode (lpad (natText n) width)) = .ok (n : Int) := by
  unfold maxField at small
  rw [natText_eq, encode_plain ((plain_intText n).lpad width)]
  refine int4in_lpad ?_ (by unfold int4Min; omega) (by unfold int4Max; omega)
  rw [← natText_eq]
  exact length_natText_le positive bound

theorem chunkMessage_reads {row : Chunk × Nat} {job : Job} (done : chunkMessage env row = .ok job)
    (exact : row.1.js.gap = 0) (few : row.1.idx < 10 ^ 8)
    (fits : (168 + row.1.chunkData.length : Int) ≤ row.1.systemCapacity)
    (small : row.1.chunkData.length ≤ maxField) :
    messageType job.jobdata = typeField "2" ∧ chunkIndex job.jobdata = .ok row.1.idx ∧
      chunkParent job.jobdata = row.1.js.jobid.text ∧
      chunkPayload job.jobdata = .ok row.1.chunkData ∧
      (job.jobdata.length : Int) = row.1.systemCapacity ∧ job.jparentJobid = row.1.js.jobid := by
  obtain ⟨mdata, sealing, last⟩ := chunkMessage_ok done
  obtain ⟨-, data, -, -, -, parent, -⟩ := messageJob_ok last
  have type := messageType_createMessage (by decide) sealing
  obtain ⟨header, shape, -⟩ := createMessage_fields (by decide) sealing
  have total : header.fields.flatten.length = 114 := by
    have length : header.fields.flatten.length + row.1.js.gap = 114 := header.length
    omega
  rw [data]
  -- the content as fields
  let fields : List Bytea := [lpad (natText row.1.idx) 8, row.1.js.jobid.text,
    lpad (natText row.1.chunkData.length) 10, row.1.chunkData, padding row.1.systemCapacity
      (header.fields.flatten.length + (lpad (natText row.1.idx) 8 ++ row.1.js.jobid.text ++
        lpad (natText row.1.chunkData.length) 10).length + row.1.chunkData.length)]
  have split : mdata = header.fields.flatten ++ fields.flatten := by
    rw [shape]
    simp only [fields, List.flatten_cons, List.flatten_nil, List.append_assoc, List.append_nil]
  have field (start count i : Nat) (value : Bytea) (beyond : 114 < start)
      (found : fields[i]? = some value) (place : fieldStart fields i + 1 = start - 114)
      (width : value.length = count) : substr mdata start count = value := by
    rw [split, header.content exact _ beyond]
    exact substr_field found place width
  have index := field 115 8 0 _ (by decide) rfl (by simp) (length_lpad _ _)
  have of := field 123 36 1 _ (by decide) rfl (by simp [fields]) row.1.js.jobid.length
  have size := field 159 10 2 _ (by decide) rfl (by simp [fields, row.1.js.jobid.length])
    (length_lpad _ _)
  have payload := field 169 row.1.chunkData.length 3 _ (by decide) rfl
    (by simp [fields, row.1.js.jobid.length]) rfl
  refine ⟨type, ?_, ?_, ?_, ?_, parent⟩
  · rw [chunkIndex, index]
    exact number_field (by decide) few (by unfold maxField; omega)
  · rw [chunkParent, of, encode_plain (plain_uuid _)]
  · rw [chunkPayload, size, number_field (by decide) (by unfold maxField at small; omega) small]
    simp only [bind, Except.bind, pure, Except.pure, Int.toNat_natCast, payload]
  · rw [shape]
    apply length_message
    simp only [List.length_append, total, length_lpad, row.1.js.jobid.length]
    push_cast
    omega

theorem infoMessage_reads {fd : File} {js : Job} {si : SysInfo} {i : Nat} {job : Job}
    {capacity : Int} (done : infoMessage env ((fd, js, si), i) = .ok job)
    (known : si.systemCapacity = some capacity) (exact : js.gap = 0) (large : 172 < capacity)
    (few : chunkTotal fd.fileData.length capacity ≤ 10 ^ 8) :
    messageType job.jobdata = typeField "3" ∧ infoParent job.jobdata = js.jobid.text ∧
      infoSize job.jobdata = .ok fd.fileData.length ∧
      chunkCount job.jobdata = .ok (chunkTotal fd.fileData.length capacity) ∧
      (job.jobdata.length : Int) = capacity ∧ job.jparentJobid = js.jobid := by
  obtain ⟨capacity', count, mdata, known', quotient, small, sealing, last⟩ := infoMessage_ok done
  obtain rfl : capacity = capacity' := Option.some.inj (known.symm.trans known')
  obtain rfl := Except.ok.inj ((ceilDiv_total large).symm.trans quotient)
  obtain ⟨-, data, -, -, -, parent, -⟩ := messageJob_ok last
  have type := messageType_createMessage (by decide) sealing
  obtain ⟨header, shape, -⟩ := createMessage_fields (by decide) sealing
  have total : header.fields.flatten.length = 114 := by
    have length : header.fields.flatten.length + js.gap = 114 := header.length
    omega
  rw [data]
  let fields : List Bytea := [js.jobid.text, lpad (natText fd.fileData.length) 12,
    lpad (intText (chunkTotal fd.fileData.length capacity)) 10, padding capacity
      (header.fields.flatten.length + (js.jobid.text ++ lpad (natText fd.fileData.length) 12 ++
        lpad (intText (chunkTotal fd.fileData.length capacity)) 10).length + 0)]
  have split : mdata = header.fields.flatten ++ fields.flatten := by
    rw [shape]
    simp only [fields, List.flatten_cons, List.flatten_nil, List.append_assoc, List.append_nil,
      List.nil_append, List.length_nil]
  have field (start count i : Nat) (value : Bytea) (beyond : 114 < start)
      (found : fields[i]? = some value) (place : fieldStart fields i + 1 = start - 114)
      (width : value.length = count) : substr mdata start count = value := by
    rw [split, header.content exact _ beyond]
    exact substr_field found place width
  have of := field 115 36 0 _ (by decide) rfl (by simp) js.jobid.length
  have size := field 151 12 1 _ (by decide) rfl (by simp [fields, js.jobid.length])
    (length_lpad _ _)
  have pieces := field 163 10 2 _ (by decide) rfl (by simp [fields, js.jobid.length])
    (length_lpad _ _)
  refine ⟨type, ?_, ?_, ?_, ?_, parent⟩
  · rw [infoParent, of, encode_plain (plain_uuid _)]
  · rw [infoSize, size]
    have loaded : fd.fileData.length ≤ maxField := small
    exact number_field (by decide) (by unfold maxField at loaded; omega) loaded
  · rw [chunkCount, pieces, ← natText_eq]
    exact number_field (by decide) (by omega) (by unfold maxField; omega)
  · rw [shape]
    apply length_message
    simp only [List.length_append, total, length_lpad, js.jobid.length, List.length_nil]
    push_cast
    omega

theorem chunkInfo_pieces {fd : File} {js : Job} {si : SysInfo} {capacity : Int}
    (known : si.systemCapacity = some capacity) (large : 172 < capacity)
    (small : capacity ≤ maxField) (loaded : fd.fileData.length ≤ maxField) :
    chunkInfo (fd, js, si) = .ok ((List.range (chunkTotal fd.fileData.length capacity)).map
      fun idx => ⟨idx, js, capacity, piece fd.fileData (capacity - 172).toNat idx⟩) := by
  have room : int4 (capacity - 172) = .ok (capacity - 172) :=
    if_pos ⟨by unfold int4Min; omega, by unfold maxField at small; unfold int4Max; omega⟩
  simp only [chunkInfo, loGet, if_pos loaded, known, room, ceilDiv_total large, bind, Except.bind,
    Int.toNat_natCast]
  apply mapM_ok.mpr
  rw [List.forall₂_map_right_iff, List.forall₂_same]
  intro idx _
  have short : ((fd.fileData.drop (idx * (capacity - 172).toNat)).take
      (capacity - 172).toNat).length ≤ maxField := by
    rw [List.length_take]
    omega
  simp only [loGetFrom, loGet, if_pos short, pure, Except.pure, piece]

theorem length_piece (xs : Bytea) (size i : Nat) : (piece xs size i).length ≤ size :=
  List.length_take_le _ _

/-- The names and the priority lose no byte in their casts. -/
structure Casts (js : Job) : Prop where
  source : 92 ∉ btrim js.jsource
  destination : 92 ∉ btrim js.jdestination
  priority : 92 ∉ js.jpriority

theorem not_mem_lpad {t : Text} {n : Nat} (free : 92 ∉ t) : 92 ∉ lpad t n := by
  unfold lpad
  split
  · exact fun inside => free (List.mem_of_mem_take inside)
  · simpa using free

theorem castGap_free {t : Text} (free : 92 ∉ t) : castGap t = 0 := by
  simp only [castGap, byteain_free (not_mem_lpad free), length_lpad, Nat.sub_self]

theorem Casts.gap {js : Job} (casts : Casts js) : js.gap = 0 := by
  simp only [Job.gap, headerGap, castGap_free casts.source, castGap_free casts.destination,
    castGap_free casts.priority]

theorem Casts.parts {js : Job} (casts : Casts js) :
    byteain (lpad (btrim js.jsource) 5) = .ok (lpad (btrim js.jsource) 5) ∧
      byteain (lpad (btrim js.jdestination) 5) = .ok (lpad (btrim js.jdestination) 5) ∧
      byteain (lpad js.jpriority 5) = .ok (lpad js.jpriority 5) :=
  ⟨byteain_free (not_mem_lpad casts.source), byteain_free (not_mem_lpad casts.destination),
    byteain_free (not_mem_lpad casts.priority)⟩

theorem chunkMessage_total {chunk : Chunk} (i : Nat) (casts : Casts chunk.js)
    (fits : (168 + chunk.chunkData.length : Int) ≤ chunk.systemCapacity)
    (small : chunk.systemCapacity ≤ maxField) : ∃ job, chunkMessage env (chunk, i) = .ok job := by
  obtain ⟨src, dst, prio⟩ := casts.parts
  obtain ⟨mdata, sealing⟩ : ∃ mdata, createMessage env.now (env.uuid 3 i).text (ascii "2")
      (lpad (natText chunk.idx) 8 ++ chunk.js.jobid.text ++ lpad (natText chunk.chunkData.length) 10)
      chunk.chunkData (btrim chunk.js.jsource) (btrim chunk.js.jdestination) chunk.js.jpriority
      (some chunk.systemCapacity) = .ok mdata := by
    apply createMessage_total (by decide) src dst prio _ small
    simp only [List.length_append, length_lpad, chunk.js.jobid.length]
    omega
  obtain ⟨job, last⟩ := messageJob_total chunk.js sealing
  refine ⟨job, ?_⟩
  simp only [chunkMessage, sealing, last, bind, Except.bind]

theorem infoMessage_total {fd : File} {js : Job} {si : SysInfo} {capacity : Int} (number : Nat)
    (known : si.systemCapacity = some capacity) (large : 172 < capacity) (casts : Casts js)
    (small : capacity ≤ maxField) (loaded : fd.fileData.length ≤ maxField) :
    ∃ info, infoMessage env ((fd, js, si), number) = .ok info := by
  obtain ⟨src, dst, prio⟩ := casts.parts
  obtain ⟨mdata, sealing⟩ : ∃ mdata, createMessage env.now (env.uuid 4 number).text (ascii "3")
      (js.jobid.text ++ lpad (natText fd.fileData.length) 12 ++
        lpad (intText (chunkTotal fd.fileData.length capacity)) 10) []
      (btrim js.jsource) (btrim js.jdestination) js.jpriority (some capacity) = .ok mdata := by
    apply createMessage_total (by decide) src dst prio _ small
    simp only [List.length_append, length_lpad, js.jobid.length, List.length_nil]
    omega
  obtain ⟨job, last⟩ := messageJob_total js sealing
  have room : int4 (capacity - 172) = .ok (capacity - 172) :=
    if_pos ⟨by unfold int4Min; omega, by unfold maxField at small; unfold int4Max; omega⟩
  refine ⟨job, ?_⟩
  simp only [infoMessage, loGet, if_pos loaded, known, room, ceilDiv_total large, bind, Except.bind]
  rw [sealing]
  exact last

/-- With fields that lose nothing and sizes that the server can handle, the messages are
made, and they are the ones that the file needs. -/
theorem splitJob_total {fd : File} {js : Job} {si : SysInfo} {capacity : Int}
    {numbers : List Nat} {number : Nat} (known : si.systemCapacity = some capacity)
    (large : 172 < capacity) (long : (fd.fileData.length : Int) > capacity - 172)
    (few : chunkTotal fd.fileData.length capacity ≤ 10 ^ 8)
    (enough : numbers.length = chunkTotal fd.fileData.length capacity) (casts : Casts js)
    (small : capacity ≤ maxField) (loaded : fd.fileData.length ≤ maxField) :
    ∃ chunks info, splitJob env (fd, js, si) numbers number = .ok (chunks, info) ∧
      Layout capacity fd.fileData js.jobid chunks info := by
  let size := (capacity - 172).toNat
  let total := chunkTotal fd.fileData.length capacity
  let row (idx : Nat) : Chunk := ⟨idx, js, capacity, piece fd.fileData size idx⟩
  have each (p : Chunk × Nat) (member : p ∈ ((List.range total).map row).zip numbers) :
      p.1.js = js ∧ p.1.idx < 10 ^ 8 ∧ p.1.systemCapacity = capacity ∧
        (168 + p.1.chunkData.length : Int) ≤ capacity ∧ p.1.chunkData.length ≤ maxField := by
    obtain ⟨idx, inside, same⟩ := List.mem_map.mp (List.of_mem_zip member).1
    have bound := length_piece fd.fileData size idx
    have below := List.mem_range.mp inside
    rw [← same]
    simp only [row, size] at bound ⊢
    exact ⟨trivial, by omega, trivial, by omega, by omega⟩
  obtain ⟨chunks, made⟩ : ∃ chunks, (((List.range total).map row).zip numbers).mapM
      (chunkMessage env) = .ok chunks := by
    refine mapM_total fun p member => ?_
    obtain ⟨hjs, -, hcap, fits, -⟩ := each p member
    exact chunkMessage_total p.2 (hjs ▸ casts) (hcap ▸ fits) (hcap ▸ small)
  obtain ⟨info, told⟩ : ∃ info, infoMessage env ((fd, js, si), number) = .ok info :=
    infoMessage_total number known large casts small loaded
  refine ⟨chunks, info, ?_, ?_⟩
  · simp only [splitJob, chunkInfo_pieces known large small loaded, bind, Except.bind]
    rw [made]
    simp only [told, pure, Except.pure]
  have reads := mapM_ok.mp made
  obtain ⟨infoType, infoOf, infoSize, infoCount, infoLength, infoRow⟩ :=
    infoMessage_reads told known casts.gap large few
  have chunkOf {job : Job} (member : job ∈ chunks) : messageType job.jobdata = typeField "2" ∧
      chunkParent job.jobdata = js.jobid.text ∧ (job.jobdata.length : Int) = capacity ∧
      job.jparentJobid = js.jobid := by
    obtain ⟨p, inside, done⟩ := forall₂_mem_right reads member
    obtain ⟨hjs, few, hcap, fits, small⟩ := each p inside
    obtain ⟨type, -, of, -, length, parent⟩ := chunkMessage_reads done (hjs ▸ casts.gap) few
      (hcap ▸ fits) small
    exact ⟨type, hjs ▸ of, hcap ▸ length, hjs ▸ parent⟩
  have counted : chunks.length = total := by
    rw [← reads.length_eq, List.length_zip, List.length_map, List.length_range, enough]
    exact Nat.min_self _
  -- the indices and the payloads, one by one
  have firsts : (((List.range total).map row).zip numbers).map Prod.fst =
      (List.range total).map row :=
    List.map_fst_zip (by rw [List.length_map, List.length_range, enough])
  have indexed : chunks.mapM (fun job => chunkIndex job.jobdata) =
      .ok ((List.range total).map Int.ofNat) := by
    apply mapM_of_map
    calc
      chunks.map (fun job => chunkIndex job.jobdata) =
          (((List.range total).map row).zip numbers).map fun p => .ok (p.1.idx : Int) := by
        refine forall₂_map_eq reads fun p inside job done => ?_
        obtain ⟨hjs, few, hcap, fits, small⟩ := each p inside
        exact (chunkMessage_reads done (hjs ▸ casts.gap) few (hcap ▸ fits) small).2.1
      _ = ((((List.range total).map row).zip numbers).map Prod.fst).map
          fun chunk => .ok (chunk.idx : Int) := by rw [List.map_map]; rfl
      _ = ((List.range total).map Int.ofNat).map .ok := by
        rw [firsts, List.map_map, List.map_map]
        rfl
  have parted : chunks.mapM (fun job => chunkPayload job.jobdata) =
      .ok ((List.range total).map (piece fd.fileData size)) := by
    apply mapM_of_map
    calc
      chunks.map (fun job => chunkPayload job.jobdata) =
          (((List.range total).map row).zip numbers).map fun p => .ok p.1.chunkData := by
        refine forall₂_map_eq reads fun p inside job done => ?_
        obtain ⟨hjs, few, hcap, fits, small⟩ := each p inside
        exact (chunkMessage_reads done (hjs ▸ casts.gap) few (hcap ▸ fits) small).2.2.2.1
      _ = ((((List.range total).map row).zip numbers).map Prod.fst).map
          fun chunk => .ok chunk.chunkData := by rw [List.map_map]; rfl
      _ = ((List.range total).map (piece fd.fileData size)).map .ok := by
        rw [firsts, List.map_map, List.map_map]
        rfl
  constructor
  · exact counted
  · exact fun job member => (chunkOf member).1
  · exact infoType
  · intro job member
    rcases List.mem_cons.mp member with rfl | chunk
    · exact infoLength
    · exact (chunkOf chunk).2.2.1
  · refine ⟨chunks, List.Perm.refl _, indexed, _, parted, flatten_all ?_⟩
    exact (chunkTotal_bounds large long).2
  · exact infoSize
  · exact infoCount
  · exact fun job member => (chunkOf member).2.1
  · exact infoOf
  · intro job member
    rcases List.mem_cons.mp member with rfl | chunk
    · exact infoRow
    · exact (chunkOf chunk).2.2.2

end Total

section Needs

variable {env : Env}

theorem uuid_solid (id : Uuid) {b : UInt8} (member : b ∈ id.text) :
    isSpace b = false ∧ clean b = true := by
  have apart : b ≠ 32 := by
    rintro rfl
    exact absurd (id.bytes 32 member) (by decide)
  have high := plain_uuid id b member
  simp only [plain, Bool.and_eq_true, decide_eq_true_eq] at high
  have control : ¬ b ≤ 13 := fun low => absurd (UInt8.le_trans high.1.1 low) (by decide)
  exact ⟨by simp [isSpace, apart, control], (plain_uuid id).clean b member⟩

/-- Behind a gap, the eight bytes of the index end with a byte of the parent's UUID. -/
theorem chunkIndex_gap {row : Chunk × Nat} {job : Job} {n : Int}
    (done : chunkMessage env row = .ok job) (gapped : 0 < row.1.js.gap)
    (read : chunkIndex job.jobdata = .ok n) :
    n.natAbs % 10 = (row.1.js.jobid.text.getD (row.1.js.gap - 1) 0).toNat - 48 := by
  obtain ⟨mdata, sealing, last⟩ := chunkMessage_ok done
  obtain ⟨header, shape, -⟩ := createMessage_fields (by decide) sealing
  have total : header.fields.flatten.length + row.1.js.gap = 114 := header.length
  have small : row.1.js.gap ≤ 15 := headerGap_le _ _ _
  have inside : row.1.js.gap - 1 < row.1.js.jobid.text.length := by
    rw [row.1.js.jobid.length]
    omega
  let b := row.1.js.jobid.text[row.1.js.gap - 1]
  have found : row.1.js.jobid.text[row.1.js.gap - 1]? = some b := List.getElem?_eq_getElem inside
  have byte : mdata[114 + 7]? = some b := by
    rw [shape, List.getElem?_append_right (by omega), List.append_assoc, List.append_assoc,
      List.getElem?_append_right (by rw [length_lpad]; omega), length_lpad,
      show 114 + 7 - header.fields.flatten.length - 8 = row.1.js.gap - 1 by omega,
      List.getElem?_append_left inside]
    exact found
  have window : substr mdata 115 8 = (mdata.drop 114).take 7 ++ [b] := by
    rw [substr, List.take_add_one, List.getElem?_drop, byte]
    rfl
  obtain ⟨solid, clean⟩ := uuid_solid row.1.js.jobid (List.mem_of_getElem? found)
  rw [(messageJob_ok last).2.1, chunkIndex, window, encode, List.flatMap_append, List.flatMap_cons,
    List.flatMap_nil, List.append_nil, encodeByte_clean clean, int4in] at read
  rw [List.getD_eq_getElem?_getD, found]
  split at read
  · cases read
  · next value known =>
      rw [(int4_ok read).1]
      exact integerIn_last solid known

theorem casts_of_layout {fd : File} {js : Job} {si : SysInfo} {capacity : Int}
    {numbers : List Nat} {number : Nat} {chunks : List Job} {info : Job}
    (known : si.systemCapacity = some capacity) (large : 172 < capacity)
    (long : (fd.fileData.length : Int) > capacity - 172)
    (source : (btrim js.jsource).length ≤ 5) (destination : (btrim js.jdestination).length ≤ 5)
    (priority : js.jpriority.length ≤ 5)
    (made : splitJob env (fd, js, si) numbers number = .ok (chunks, info))
    (layout : Layout capacity fd.fileData js.jobid chunks info) :
    Casts js ∧ capacity ≤ maxField ∧ fd.fileData.length ≤ maxField := by
  obtain ⟨parts, cut, rest⟩ := bind_ok.mp made
  obtain ⟨chunks', built, rest⟩ := bind_ok.mp rest
  obtain ⟨info', told, same⟩ := bind_ok.mp rest
  obtain ⟨rfl, rfl⟩ := Prod.mk.inj (pure_ok.mp same)
  obtain ⟨capacity', count, mdata, known', -, loaded, sealing, last⟩ := infoMessage_ok told
  obtain rfl : capacity = capacity' := Option.some.inj (known.symm.trans known')
  obtain ⟨header, shape, fits⟩ := createMessage_fields (by decide) sealing
  have size := layout.size info' List.mem_cons_self
  rw [(messageJob_ok last).2.1] at size
  have none : js.gap = 0 := by
    by_contra gapped
    obtain ⟨order, perm, indexed, -⟩ := layout.reassembled
    have two := (chunkTotal_bounds large long).1
    have digit (n : Nat) (below : n < chunkTotal fd.fileData.length capacity) :
        n % 10 = (js.jobid.text.getD (js.gap - 1) 0).toNat - 48 := by
      have listed : Int.ofNat n ∈ (List.range (chunkTotal fd.fileData.length capacity)).map
          Int.ofNat := List.mem_map_of_mem (List.mem_range.mpr below)
      obtain ⟨job, member, read⟩ := forall₂_mem_right (mapM_ok.mp indexed) listed
      obtain ⟨p, inside, done⟩ := forall₂_mem_right (mapM_ok.mp built) (perm.mem_iff.mp member)
      have mine : p.1.js = js := (Completion.chunkInfo_ok cut).1 p.1 (List.of_mem_zip inside).1
      have last := chunkIndex_gap done (by rw [mine]; omega) read
      rw [mine] at last
      exact last
    have zero := digit 0 (by omega)
    have one := digit 1 (by omega)
    omega
  simp only [Job.gap, headerGap, Nat.add_eq_zero_iff] at none
  refine ⟨⟨?_, ?_, ?_⟩, by omega, loaded⟩
  · exact (castGap_zero_iff source header.castSource).mp none.1.1
  · exact (castGap_zero_iff destination header.castDestination).mp none.1.2
  · exact (castGap_zero_iff priority header.castPriority).mp none.2

end Needs

end Chunks

end FileSharing
