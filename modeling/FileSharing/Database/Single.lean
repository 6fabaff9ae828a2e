import FileSharing.Database.Evolution
import FileSharing.Database.Layout

/-! Messages of type 1. Their subheader is empty, so the file is followed by the blanks that
fill the message, and nothing says where it ends. -/

namespace FileSharing

open Library RunJobs

namespace Single

/-- The bytes from 115 on. -/
def payload (data : Bytea) : Bytea := data.drop 114

section Payload

variable {env : Env} {fd fd' : File} {js job job' : Job} {si : SysInfo} {capacity : Int} {i : Nat}

theorem payload_single (known : si.systemCapacity = some capacity) (large : 172 < capacity)
    (short : (fd.fileData.length : Int) ≤ capacity - 172)
    (made : singleMessage env ((fd, js, si), i) = .ok job) :
    payload job.jobdata = fd.fileData.drop (js.gap) ++
      List.replicate ((capacity - 114).toNat - (fd.fileData.drop (js.gap)).length) 32 := by
  obtain ⟨mdata, sealing, last⟩ := singleMessage_ok made
  rw [known] at sealing
  obtain ⟨header, shape, -⟩ := createMessage_fields (by decide) sealing
  have length : header.fields.flatten.length + js.gap = 114 := header.length
  rw [(messageJob_ok last).2.1, shape, payload, List.nil_append, List.length_nil, Nat.add_zero,
    List.drop_append, List.drop_eq_nil_of_le (by omega), List.nil_append,
    show 114 - header.fields.flatten.length = js.gap by omega, List.drop_append, padding,
    List.drop_replicate, List.length_drop]
  dsimp only
  congr 2
  omega

/-- Two messages of type 1 with the same header fields and different files have different
payloads exactly if the files differ in more than blanks at their end. -/
theorem payloads_differ_iff (known : si.systemCapacity = some capacity) (large : 172 < capacity)
    (short : (fd.fileData.length : Int) ≤ capacity - 172)
    (short' : (fd'.fileData.length : Int) ≤ capacity - 172)
    (made : singleMessage env ((fd, js, si), i) = .ok job)
    (made' : singleMessage env ((fd', js, si), i) = .ok job') :
    payload job.jobdata ≠ payload job'.jobdata ↔
      rtrim (fd.fileData.drop (js.gap)) ≠ rtrim (fd'.fileData.drop (js.gap)) := by
  rw [payload_single known large short made, payload_single known large short' made']
  have bound : (fd.fileData.drop (js.gap)).length ≤ (capacity - 114).toNat := by
    rw [List.length_drop]
    omega
  have bound' : (fd'.fileData.drop (js.gap)).length ≤ (capacity - 114).toNat := by
    rw [List.length_drop]
    omega
  exact not_congr (padded_eq_iff 32 bound bound')

end Payload

section Samples

def m1 : SysInfo := ⟨ascii "   M1", 16843009, some 6101, 7000, some 180⟩

def smallJob : Job :=
  ⟨Uuid.ofNat 1, ascii "f", .S3, typeField "6", ascii "   M3", Uuid.ofNat 0, ascii "   M1",
    ascii "5"⟩

def singleOf (data : Text) : Sql Job :=
  singleMessage sampleEnv ((⟨ascii "f", data⟩, smallJob, m1), 0)

theorem payloads_differ_letters : ∃ job job', singleOf (ascii "a") = .ok job ∧
    singleOf (ascii "b") = .ok job' ∧ payload job.jobdata ≠ payload job'.jobdata := by
  have built : (singleOf (ascii "a")).isOk ∧ (singleOf (ascii "b")).isOk := by decide +kernel
  obtain ⟨job, made⟩ := isOk_iff.mp built.1
  obtain ⟨job', made'⟩ := isOk_iff.mp built.2
  exact ⟨job, job', made, made', (payloads_differ_iff rfl (by decide) (by decide) (by decide) made
    made').mpr (by decide)⟩

/-- A file and the same file with a blank more have the same payload. -/
theorem trailing_blank_lost : ascii "a" ≠ ascii "a " ∧ ∃ job job',
    singleOf (ascii "a") = .ok job ∧ singleOf (ascii "a ") = .ok job' ∧
      payload job.jobdata = payload job'.jobdata := by
  have built : (singleOf (ascii "a")).isOk ∧ (singleOf (ascii "a ")).isOk := by decide +kernel
  obtain ⟨job, made⟩ := isOk_iff.mp built.1
  obtain ⟨job', made'⟩ := isOk_iff.mp built.2
  refine ⟨by decide, job, job', made, made', ?_⟩
  rw [payload_single rfl (by decide) (by decide) made,
    payload_single rfl (by decide) (by decide) made']
  decide +kernel

end Samples

end Single

end FileSharing
