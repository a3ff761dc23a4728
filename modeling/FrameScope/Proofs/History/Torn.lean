import FrameScope.Proofs.History.Reopen
import Mathlib.Data.List.Forall2
import Mathlib.Data.Nat.Find

/-!
# Whole logs and torn ones

A log is whole (`FrameLog.Whole`) when it is the records of payloads that hold frames of rising
heights. These are the logs that are read (`reads_iff_whole`), and a store opens on no others.

Of a whole log that is cut short, the records that lie wholly inside what is left are read. If a
part of another record is left too, the log is refused, and the refusal names the byte where that
record starts and the part it breaks off in (`read_take`).
-/

namespace FrameScope

namespace FrameLog

open Cbor (Bytes)

variable {previous : Option Height} {bytes : Bytes} {payloads : List Bytes} {frames : List Frame}
  {f : Frame} {k n : Nat}

/-! ### Whole logs -/

/-- The record of a payload: its length and the payload. -/
def framed (payload : Bytes) : Bytes := header payload.length ++ payload

/-- The records of payloads, one after the other. -/
def joined (payloads : List Bytes) : Bytes := (payloads.map framed).flatten

/-- A payload that a header has room for, and that is the document of a frame under its height. -/
structure Holds (payload : Bytes) (f : Frame) : Prop where
  length : payload.length < Word.narrowSize
  decode : Cbor.decode (Coded.read (α := LogRecord)) payload = some ⟨f.height, f⟩

/-- The bytes are the records of payloads, which hold frames of rising heights. -/
structure Whole (payloads : List Bytes) (frames : List Frame) (bytes : Bytes) : Prop where
  eq_joined : bytes = joined payloads
  holds : List.Forall₂ Holds payloads frames
  rising : frames.Pairwise (·.height < ·.height)

theorem joined_cons (payload : Bytes) (payloads : List Bytes) :
    joined (payload :: payloads) = header payload.length ++ (payload ++ joined payloads) := by
  simp [joined, framed]

theorem joined_append (payloads more : List Bytes) :
    joined (payloads ++ more) = joined payloads ++ joined more := by
  simp [joined]

theorem length_framed (payload : Bytes) : (framed payload).length = headerLength + payload.length := by
  rw [framed, List.length_append, length_header]

theorem header_ofHeader {head : Bytes} (h : head.length = headerLength) :
    header (ofHeader head) = head := by
  rw [header, ofHeader, ← h, ← List.length_reverse, Cbor.bigEndian_ofBigEndian,
    List.reverse_reverse]

theorem ofHeader_lt {head : Bytes} (h : head.length = headerLength) :
    ofHeader head < Word.narrowSize := by
  have hlt := Cbor.ofBigEndian_lt head.reverse
  rw [List.length_reverse, h] at hlt
  exact hlt

theorem readPayload_eq_ok_iff {payload : Bytes} :
    readPayload previous payload = .ok f ↔
      Cbor.decode (Coded.read (α := LogRecord)) payload = some ⟨f.height, f⟩ ∧
        ∀ p ∈ previous, p < f.height := by
  constructor
  · intro h
    refine ⟨?_, fun p hp => lt_of_readPayload (Option.mem_def.mp hp ▸ h)⟩
    unfold readPayload at h
    split at h
    · simp at h
    · rename_i r hr
      split at h
      · simp at h
      · rename_i hheight
        rw [ne_eq, not_not] at hheight
        have hframe : r.frame = f := by
          split at h
          · split at h
            · simp at h
            · exact Except.ok.inj h
          · exact Except.ok.inj h
        rw [hr, ← hframe, ← hheight]
  · rintro ⟨hdecode, hprevious⟩
    simp only [readPayload, hdecode, ne_eq, not_true, if_false]
    cases previous with
    | none => rfl
    | some p => exact if_neg (Nat.not_le.mpr (hprevious p rfl))

/-- **The logs that are read are the whole ones.** -/
theorem reads_iff_whole :
    Reads previous bytes frames ↔
      (∃ payloads, Whole payloads frames bytes) ∧ ∀ p ∈ previous, ∀ f ∈ frames, p < f.height := by
  constructor
  · intro h
    obtain ⟨hrising, habove⟩ := h.rising
    refine ⟨?_, habove⟩
    induction h with
    | nil previous => exact ⟨[], rfl, .nil, hrising⟩
    | @cons previous head payload rest f fs hhead hpayload hf hrest ih =>
      obtain ⟨hrising', habove'⟩ := hrest.rising
      obtain ⟨payloads, rfl, hholds, -⟩ := ih hrising' habove'
      refine ⟨payload :: payloads, ?_, .cons ⟨?_, (readPayload_eq_ok_iff.mp hf).1⟩ hholds, hrising⟩
      · rw [joined_cons, hpayload, header_ofHeader hhead]
      · exact hpayload ▸ ofHeader_lt hhead
  · rintro ⟨⟨payloads, rfl, hholds, hrising⟩, habove⟩
    induction hholds generalizing previous with
    | nil => exact .nil previous
    | @cons payload f payloads frames hf _ ih =>
      obtain ⟨hbehind, hrising⟩ := List.pairwise_cons.mp hrising
      rw [joined_cons]
      refine .cons (length_header _) (ofHeader_header hf.length).symm
        (readPayload_eq_ok_iff.mpr ⟨hf.decode, fun p hp => habove p hp f (by simp)⟩)
        (ih (fun p hp g hg => ?_) hrising)
      exact Option.some.inj hp ▸ hbehind g hg

/-! ### Records that break off -/

theorem take?_eq_none {count : Nat} (h : bytes.length < count) : Cbor.take? count bytes = none := by
  simp only [Cbor.take?, List.length_take]
  exact if_neg (by omega)

/-- **A record that breaks off is refused for the part it breaks off in.** -/
theorem splitRecord_take {payload : Bytes} (hsize : payload.length < Word.narrowSize)
    (hk : k < (framed payload).length) (offset : Nat) :
    splitRecord offset ((framed payload).take k) =
      .error (.corrupt (.truncated (if k < headerLength then .header else .payload) offset)) := by
  rw [length_framed] at hk
  by_cases hheader : k < headerLength
  · have hshort : ((framed payload).take k).length < headerLength :=
      Nat.lt_of_le_of_lt (List.length_take_le _ _) hheader
    rw [splitRecord, take?_eq_none hshort, if_pos hheader]
  · obtain ⟨j, rfl⟩ : ∃ j, k = headerLength + j := ⟨k - headerLength, by omega⟩
    have hhead := length_header payload.length
    have hcut : (framed payload).take (headerLength + j) =
        header payload.length ++ payload.take j := by
      rw [framed, ← hhead, List.take_length_add_append]
    have hshort : (payload.take j).length < ofHeader (header payload.length) := by
      rw [ofHeader_header hsize, List.length_take]
      omega
    simp only [splitRecord, hcut, Cbor.take?_append hhead, take?_eq_none hshort, if_neg hheader]

/-- What stands behind a log that reads, and is no record, is why the whole is refused. -/
theorem readFrom_append_eq_error {more : Bytes} {e : StoreError}
    (h : Reads previous bytes frames) {fuel offset : Nat}
    (hfuel : (bytes ++ more).length ≤ fuel) (hmore : more ≠ [])
    (herror : splitRecord (offset + bytes.length) more = .error e) :
    readFrom fuel offset previous (bytes ++ more) = .error e := by
  induction h generalizing fuel offset with
  | nil previous =>
    obtain ⟨b, rest, rfl⟩ := List.exists_cons_of_ne_nil hmore
    obtain ⟨fuel, rfl⟩ : ∃ n, fuel = n + 1 := ⟨fuel - 1, by simp at hfuel; omega⟩
    rw [List.length_nil, Nat.add_zero] at herror
    simp only [List.nil_append, readFrom, herror, bind, Except.bind]
  | @cons previous head payload rest f fs hhead hpayload hf hrest ih =>
    simp only [List.append_assoc, List.length_append, hhead, headerLength] at hfuel herror ⊢
    obtain ⟨fuel, rfl⟩ : ∃ n, fuel = n + 1 := ⟨fuel - 1, by omega⟩
    have hstart : offset + headerLength + payload.length + rest.length =
        offset + (4 + (payload.length + rest.length)) := by
      rw [headerLength]
      omega
    have hbehind := @ih fuel (offset + headerLength + payload.length)
      (by rw [List.length_append]; omega) (by rw [hstart, herror])
    rw [readFrom_record hhead hpayload hf, hbehind]
    rfl

/-! ### Logs that are cut short -/

/-- Of the records of payloads, the first `n` are those that lie wholly inside the first `k`
bytes. -/
def Inside (payloads : List Bytes) (k n : Nat) : Prop :=
  n ≤ payloads.length ∧ ∀ m ≤ payloads.length, (joined (payloads.take m)).length ≤ k ↔ m ≤ n

theorem length_joined_take_mono (payloads : List Bytes) {m n : Nat} (h : m ≤ n) :
    (joined (payloads.take m)).length ≤ (joined (payloads.take n)).length := by
  obtain ⟨j, rfl⟩ := Nat.exists_eq_add_of_le h
  rw [List.take_add, joined_append, List.length_append]
  exact Nat.le_add_right _ _

theorem exists_inside (payloads : List Bytes) (k : Nat) : ∃ n, Inside payloads k n := by
  let fits : Nat → Prop := fun m => (joined (payloads.take m)).length ≤ k
  have hzero : fits 0 := Nat.zero_le k
  refine ⟨Nat.findGreatest fits payloads.length, Nat.findGreatest_le (P := fits) _, fun m hm => ⟨?_, ?_⟩⟩
  · exact fun hfits => Nat.le_findGreatest (P := fits) hm hfits
  · intro hle
    have hgreatest := Nat.findGreatest_spec (P := fits) (Nat.zero_le payloads.length) hzero
    exact Nat.le_trans (length_joined_take_mono payloads hle) hgreatest

theorem Whole.take (h : Whole payloads frames bytes) (n : Nat) :
    Whole (payloads.take n) (frames.take n) (joined (payloads.take n)) where
  eq_joined := rfl
  holds := List.forall₂_take n h.holds
  rising := h.rising.sublist (List.take_sublist n frames)

theorem Whole.reads (h : Whole payloads frames bytes) : Reads none bytes frames :=
  reads_iff_whole.mpr ⟨⟨payloads, h⟩, by simp⟩

theorem Whole.length_lt (h : Whole payloads frames bytes) :
    ∀ payload ∈ payloads, payload.length < Word.narrowSize :=
  (List.forall₂_and_left _ _).mp (h.holds.imp fun _ _ hf => ⟨hf.length, hf⟩) |>.1

/-- **Of a whole log that is cut short, the records wholly inside are read, and a part of another
record is refused with the byte where that record starts.** -/
theorem read_take (h : Whole payloads frames bytes) (hk : k ≤ bytes.length)
    (hn : Inside payloads k n) :
    FrameLog.read (bytes.take k) =
      if (joined (payloads.take n)).length = k then .ok ⟨(frames.take n).toArray⟩
      else .error (.corrupt (.truncated
        (if k < (joined (payloads.take n)).length + headerLength then .header else .payload)
        (joined (payloads.take n)).length)) := by
  obtain ⟨hle, hinside⟩ := hn
  have hreads := (h.take n).reads
  have hsplit : bytes = joined (payloads.take n) ++ joined (payloads.drop n) := by
    rw [h.eq_joined, ← joined_append, List.take_append_drop]
  obtain ⟨j, rfl⟩ := Nat.exists_eq_add_of_le ((hinside n hle).mpr (Nat.le_refl n))
  rw [hsplit, List.take_length_add_append]
  rcases Nat.eq_zero_or_pos j with rfl | hj
  · -- the cut falls between two records
    rw [List.take_zero, List.append_nil, Nat.add_zero, if_pos rfl]
    exact read_eq_ok_iff.mpr hreads
  · -- the cut falls inside the record of the next payload
    have hlt : n < payloads.length := by
      by_contra hge
      rw [hsplit, List.drop_of_length_le (by omega), List.length_append] at hk
      simp only [joined, List.map_nil, List.flatten_nil, List.length_nil] at hk
      omega
    have hnext : (joined (payloads.take (n + 1))).length =
        (joined (payloads.take n)).length + (framed payloads[n]).length := by
      rw [List.take_succ_eq_append_getElem hlt, joined_append, List.length_append]
      simp [joined]
    have hshort : j < (framed payloads[n]).length := by
      have hbeyond := mt (hinside (n + 1) hlt).mp (by omega)
      omega
    have hcut : (joined (payloads.drop n)).take j = (framed payloads[n]).take j := by
      rw [List.drop_eq_getElem_cons hlt, joined, List.map_cons, List.flatten_cons,
        List.take_append_of_le_length (Nat.le_of_lt hshort)]
    have hmore : (framed payloads[n]).take j ≠ [] := by
      rw [← List.length_pos_iff, List.length_take]
      omega
    have hpayload := splitRecord_take (h.length_lt _ (List.getElem_mem hlt)) hshort
      (0 + (joined (payloads.take n)).length)
    have hne : ¬ (joined (payloads.take n)).length = (joined (payloads.take n)).length + j := by
      omega
    rw [hcut, FrameLog.read, readFrom_append_eq_error hreads (Nat.le_refl _) hmore hpayload,
      if_neg hne, Nat.zero_add]
    simp only [Nat.add_lt_add_iff_left]
    rfl

end FrameLog

namespace LogStore

open Cbor (Bytes)
open FrameLog (Whole Inside joined headerLength)

variable {fs : Files} {root : Path} {bytes : Bytes} {f : Frame}

/-! ### Opening a log that is there -/

/-- The log of a root is there and holds these bytes. -/
structure LogHolds (fs : Files) (root : Path) (bytes : Bytes) : Prop where
  parents : fs.HasParents (logPath root)
  file : fs.kind? (logPath root) = some (.file bytes)

theorem openStore_of_logHolds (h : LogHolds fs root bytes) :
    openStore fs root =
      (fs, (FrameLog.read bytes).map fun history => ⟨logPath root, history⟩) := by
  have hdirs : fs.createDirs (logDir root) = .ok fs := by
    refine Files.createDirs_eq_self fun n hn => ?_
    rw [← dropLast_logPath] at hn ⊢
    rw [List.length_dropLast] at hn
    have hlt : n < (logPath root).length := by simp [logPath] at hn ⊢; omega
    rw [Files.take_dropLast hlt]
    exact h.parents n hlt
  have hread : fs.read (logPath root) = .ok bytes := by rw [Files.read, h.file]
  simp only [openStore, hdirs, Files.exists?, h.file, Option.isSome_some, if_true, hread, lift,
    Except.mapError, bind, Except.bind]
  rcases FrameLog.read bytes with e | history <;> rfl

theorem openExisting_of_logHolds (h : LogHolds fs root bytes) :
    openExisting fs root = (openStore fs root).2 := by
  have hread : fs.read (logPath root) = .ok bytes := by rw [Files.read, h.file]
  rw [openStore_of_logHolds h]
  simp only [openExisting, Files.exists?, h.file, Option.isSome_some, if_true, hread, lift,
    Except.mapError, bind, Except.bind]
  rcases FrameLog.read bytes with e | history <;> rfl

/-- **A log opens exactly when it is whole, and a torn tail is refused.** Both ways to open a log
that is there give the frames of its records and change no file. Of a whole log that is cut short,
the records that lie wholly inside are read, and a part of another record is refused for the part it
breaks off in, with the byte where that record starts. -/
theorem opens_iff_whole_and_refuses_torn (root : Path) (bytes : Bytes) :
    (∀ fs, LogHolds fs root bytes →
      (∀ s, (openStore fs root).2 = .ok s ↔
        s.path = logPath root ∧ ∃ payloads, Whole payloads s.history.frames.toList bytes) ∧
      openExisting fs root = (openStore fs root).2 ∧ (openStore fs root).1 = fs) ∧
    ∀ payloads frames, Whole payloads frames bytes → ∀ k ≤ bytes.length,
      ∃ n, Inside payloads k n ∧ ∀ fs, LogHolds fs root (bytes.take k) →
        (openStore fs root).2 =
          if (joined (payloads.take n)).length = k then
            .ok ⟨logPath root, ⟨(frames.take n).toArray⟩⟩
          else .error (.corrupt (.truncated
            (if k < (joined (payloads.take n)).length + headerLength then .header else .payload)
            (joined (payloads.take n)).length)) := by
  constructor
  · intro fs hlog
    refine ⟨fun s => ?_, openExisting_of_logHolds hlog, by rw [openStore_of_logHolds hlog]⟩
    have hwhole : FrameLog.read bytes = .ok s.history ↔
        ∃ payloads, Whole payloads s.history.frames.toList bytes := by
      rw [FrameLog.read_eq_ok_iff, FrameLog.reads_iff_whole]
      simp
    rw [openStore_of_logHolds hlog, ← hwhole]
    constructor
    · intro h
      obtain ⟨history, hread, rfl⟩ := except_map_eq_ok h
      exact ⟨rfl, hread⟩
    · rintro ⟨hpath, hread⟩
      rw [hread, ← hpath]
      rfl
  · intro payloads frames hwhole k hk
    obtain ⟨n, hn⟩ := FrameLog.exists_inside payloads k
    refine ⟨n, hn, fun fs hlog => ?_⟩
    rw [openStore_of_logHolds hlog, FrameLog.read_take hwhole hk hn]
    split <;> rfl

/-! ### A sample log -/

/-- A frame that can follow the plain one. -/
def laterFrame : Frame := frameOf "\x7b\"height\":2\x7d".toList

/-- The payloads of both. -/
def samplePayloads : List Bytes := [FrameLog.payload plainFrame, FrameLog.payload laterFrame]

/-- The files of a store whose log holds these bytes. -/
def filesWithLog (bytes : Bytes) : Files :=
  ⟨[(["store"], .directory), (logDir ["store"], .directory), (logPath ["store"], .file bytes)]⟩

theorem logHolds_filesWithLog (bytes : Bytes) : LogHolds (filesWithLog bytes) ["store"] bytes where
  parents n hn := by
    match n, hn with
    | 0, _ => rfl
    | 1, _ => rfl
    | 2, _ => rfl
  file := rfl

theorem holds_payload (hf : f.FromText) (hsize : (FrameLog.payload f).length < Word.narrowSize)
    (hnest : (FrameLog.document f).nesting ≤ Cbor.maxDepth) :
    FrameLog.Holds (FrameLog.payload f) f.logged := by
  have hread : FrameLog.readPayload none (FrameLog.payload f) = _ :=
    FrameLog.readPayload_payload hf.good hsize (by simp)
  rw [if_pos hnest] at hread
  exact ⟨hsize, (FrameLog.readPayload_eq_ok_iff.mp hread).1⟩

theorem whole_samplePayloads :
    Whole samplePayloads [plainFrame.logged, laterFrame.logged] (joined samplePayloads) where
  eq_joined := rfl
  holds := .cons
    (holds_payload (fromText_frameOf (by decide +kernel)) (by decide +kernel) (by decide +kernel))
    (.cons
      (holds_payload (fromText_frameOf (by decide +kernel)) (by decide +kernel) (by decide +kernel))
      .nil)
  rising := by decide +kernel

/-- The sample log opens; two bytes into its second record it is refused for a header that breaks
off at byte 45. -/
theorem opens_iff_whole_and_refuses_torn_samplePayloads :
    (∃ s, (openStore (filesWithLog (joined samplePayloads)) ["store"]).2 = .ok s) ∧
      (openStore (filesWithLog ((joined samplePayloads).take 47)) ["store"]).2 =
        .error (.corrupt (.truncated .header 45)) := by
  obtain ⟨hopen, hcut⟩ := opens_iff_whole_and_refuses_torn ["store"] (joined samplePayloads)
  constructor
  · obtain ⟨hiff, -, -⟩ := hopen _ (logHolds_filesWithLog _)
    exact ⟨⟨_, ⟨#[plainFrame.logged, laterFrame.logged]⟩⟩,
      (hiff _).mpr ⟨rfl, samplePayloads, whole_samplePayloads⟩⟩
  · obtain ⟨n, ⟨hn, hinside⟩, htorn⟩ := hcut _ _ whole_samplePayloads 47 (by decide +kernel)
    have hone : n = 1 := by
      have hfirst := (hinside 1 (by decide)).mp (by decide +kernel)
      have hboth := mt (hinside 2 (by decide)).mpr (by decide +kernel)
      omega
    rw [htorn _ (logHolds_filesWithLog _), hone]
    have hstart : (joined (samplePayloads.take 1)).length = 45 := by decide +kernel
    rw [hstart]
    rfl

end LogStore

end FrameScope
