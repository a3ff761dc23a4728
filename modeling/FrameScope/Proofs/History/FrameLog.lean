import FrameScope.History.FrameLog
import FrameScope.Proofs.Frame.Loggable
import FrameScope.Proofs.Json.Literal

/-!
# Logs as runs of records

`FrameLog.Reads` relates the bytes of a log to the frames it holds, record by record and without
fuel (`read_eq_ok_iff`). What follows a log that reads is read on its own (`Reads.append`,
`reads_append_iff`), and the heights read rise (`Reads.rising`).

The record of a frame that came from a text reads back exactly when its document nests no deeper
than the reader goes, and then as the frame's logged form (`readPayload_payload`).
-/

namespace FrameScope

open Node

/-! ### Records -/

/-- A frame and the height it is filed under, both as a text yields them. -/
structure LogRecord.Good (r : LogRecord) : Prop where
  height : r.height < Word.size
  frame : r.frame.Good

namespace LogRecord

theorem brings_logged (level : Nat) {r : LogRecord} (hr : r.Good) :
    Carriage.log.Brings (level + 6) Coded.read r.write (LogRecord.mk r.height r.frame.logged) := by
  refine Carriage.brings_record (by decide) ?_
  exact .always rfl rfl (Carriage.brings_word hr.height) <|
    .always rfl rfl (Frame.brings_logged level hr.frame) <| .nil _

theorem writable {r : LogRecord} (hr : r.Good) : r.write.Writable := (brings_logged 0 hr).passes

theorem read_logged {r : LogRecord} (hr : r.Good) (m : Medium) :
    Coded.read m r.write.logged = .ok (LogRecord.mk r.height r.frame.logged) :=
  (brings_logged 0 hr).read rfl

end LogRecord

/-- A frame that a JSON text holds, alone or in an export. -/
def Frame.FromText (f : Frame) : Prop :=
  (∃ text, (Document.ofChars text).decode Coded.read = .ok f) ∨
    ∃ text fs, (Document.ofChars text).decode (Read.list Coded.read) = .ok fs ∧ f ∈ fs

theorem Frame.FromText.good {f : Frame} (h : f.FromText) : f.Good := by
  rcases h with ⟨text, h⟩ | ⟨text, fs, h, hf⟩
  · exact Frame.good_of_read (by decide) (Document.literal_root text) (Document.read_of_decode h)
  · exact Read.list_invariant (Loggable.reads (by decide)) (Document.literal_root text).parts
      (Document.read_of_decode h) f hf

namespace FrameLog

open Cbor (Bytes)

/-! ### Headers -/

theorem length_header (n : Nat) : (header n).length = headerLength := by
  rw [header, List.length_reverse, Cbor.length_bigEndian]

theorem ofHeader_header {n : Nat} (h : n < Word.narrowSize) : ofHeader (header n) = n := by
  rw [ofHeader, header, List.reverse_reverse]
  exact Cbor.ofBigEndian_bigEndian h

theorem take?_eq_some_iff {count : Nat} {bytes front rest : Bytes} :
    Cbor.take? count bytes = some (front, rest) ↔
      bytes = front ++ rest ∧ front.length = count := by
  constructor
  · intro h
    simp only [Cbor.take?] at h
    split at h
    · rename_i hlen
      simp only [Option.some.injEq, Prod.mk.injEq] at h
      obtain ⟨rfl, rfl⟩ := h
      exact ⟨(List.take_append_drop count bytes).symm, hlen⟩
    · simp at h
  · rintro ⟨rfl, hlen⟩
    exact Cbor.take?_append hlen rest

theorem splitRecord_eq_ok_iff {offset : Nat} {bytes payload rest : Bytes} :
    splitRecord offset bytes = .ok (payload, rest) ↔
      ∃ head, bytes = head ++ (payload ++ rest) ∧ head.length = headerLength ∧
        payload.length = ofHeader head := by
  constructor
  · intro h
    unfold splitRecord at h
    split at h
    · simp at h
    · rename_i head tail hhead
      split at h
      · simp at h
      · rename_i split hsplit
        simp only [Except.ok.injEq] at h
        subst h
        obtain ⟨rfl, hlen⟩ := take?_eq_some_iff.mp hhead
        obtain ⟨rfl, hpayload⟩ := take?_eq_some_iff.mp hsplit
        exact ⟨head, rfl, hlen, hpayload⟩
  · rintro ⟨head, rfl, hlen, hpayload⟩
    simp only [splitRecord, Cbor.take?_append hlen, Cbor.take?_append hpayload]

/-! ### Logs that read -/

/-- The height behind frames that follow a height. -/
def headBehind (previous : Option Height) : List Frame → Option Height
  | [] => previous
  | f :: fs => headBehind (some f.height) fs

/-- The bytes hold these frames, record by record, behind a frame of a lower height. -/
inductive Reads : Option Height → Bytes → List Frame → Prop
  | nil (previous : Option Height) : Reads previous [] []
  | cons {previous : Option Height} {head payload rest : Bytes} {f : Frame} {fs : List Frame} :
      head.length = headerLength → payload.length = ofHeader head →
      readPayload previous payload = .ok f → Reads (some f.height) rest fs →
        Reads previous (head ++ (payload ++ rest)) (f :: fs)

theorem reads_of_readFrom {fuel offset : Nat} {previous : Option Height} {bytes : Bytes}
    {fs : List Frame} (hfuel : bytes.length ≤ fuel)
    (h : readFrom fuel offset previous bytes = .ok fs) : Reads previous bytes fs := by
  induction fuel generalizing offset previous bytes fs with
  | zero =>
    obtain rfl := List.length_eq_zero_iff.mp (Nat.le_zero.mp hfuel)
    simp only [readFrom, Except.ok.injEq] at h
    exact h ▸ .nil previous
  | succ fuel ih =>
    cases bytes with
    | nil =>
      simp only [readFrom, Except.ok.injEq] at h
      exact h ▸ .nil previous
    | cons b bytes =>
      simp only [readFrom] at h
      obtain ⟨⟨payload, rest⟩, hsplit, h⟩ := except_bind_eq_ok h
      obtain ⟨f, hf, h⟩ := except_bind_eq_ok h
      obtain ⟨gs, hgs, h⟩ := except_bind_eq_ok h
      simp only [Except.ok.injEq] at h
      obtain ⟨head, heq, hhead, hpayload⟩ := splitRecord_eq_ok_iff.mp hsplit
      have hlen := congrArg List.length heq
      simp only [List.length_append, hhead, headerLength] at hlen
      rw [heq, ← h]
      exact .cons hhead hpayload hf (ih (by omega) hgs)

theorem readFrom_record {previous : Option Height} {head payload rest : Bytes} {f : Frame}
    (hhead : head.length = headerLength) (hpayload : payload.length = ofHeader head)
    (hf : readPayload previous payload = .ok f) (fuel offset : Nat) :
    readFrom (fuel + 1) offset previous (head ++ (payload ++ rest)) =
      (readFrom fuel (offset + headerLength + payload.length) (some f.height) rest).map (f :: ·) := by
  have hsplit : splitRecord offset (head ++ (payload ++ rest)) = .ok (payload, rest) :=
    splitRecord_eq_ok_iff.mpr ⟨head, rfl, hhead, hpayload⟩
  obtain ⟨b, more, hcons⟩ : ∃ b more, head ++ (payload ++ rest) = b :: more := by
    cases head with
    | nil => simp [headerLength] at hhead
    | cons b head => exact ⟨b, _, rfl⟩
  rw [hcons] at hsplit ⊢
  simp only [readFrom, hsplit, hf, bind, Except.bind]
  rfl

theorem readFrom_of_reads {previous : Option Height} {bytes : Bytes} {fs : List Frame}
    (h : Reads previous bytes fs) (fuel offset : Nat) (hfuel : bytes.length ≤ fuel) :
    readFrom fuel offset previous bytes = .ok fs := by
  induction h generalizing fuel offset with
  | nil previous => cases fuel <;> rfl
  | @cons previous head payload rest f fs hhead hpayload hf hrest ih =>
    simp only [List.length_append, hhead, headerLength] at hfuel
    obtain ⟨fuel, rfl⟩ : ∃ n, fuel = n + 1 := ⟨fuel - 1, by omega⟩
    rw [readFrom_record hhead hpayload hf, ih fuel _ (by omega)]
    rfl

/-- **The frames of a log are those its bytes hold, record by record.** -/
theorem read_eq_ok_iff {bytes : Bytes} {h : History} :
    FrameLog.read bytes = .ok h ↔ Reads none bytes h.frames.toList := by
  constructor
  · intro hread
    obtain ⟨fs, hfs, rfl⟩ := except_map_eq_ok hread
    simpa using reads_of_readFrom (Nat.le_refl _) hfs
  · intro hreads
    rw [FrameLog.read, readFrom_of_reads hreads _ 0 (Nat.le_refl _)]
    rfl

theorem Reads.append {previous : Option Height} {bytes more : Bytes} {fs gs : List Frame}
    (h : Reads previous bytes fs) (hmore : Reads (headBehind previous fs) more gs) :
    Reads previous (bytes ++ more) (fs ++ gs) := by
  induction h with
  | nil previous => exact hmore
  | cons hhead hpayload hf _ ih =>
    simp only [List.append_assoc, List.cons_append]
    exact .cons hhead hpayload hf (ih hmore)

theorem reads_nil_iff {previous : Option Height} {fs : List Frame} :
    Reads previous [] fs ↔ fs = [] := by
  constructor
  · intro h
    generalize hbytes : ([] : Bytes) = bytes at h
    cases h with
    | nil => rfl
    | cons hhead =>
      have := congrArg List.length hbytes
      simp only [List.length_nil, List.length_append, hhead, headerLength] at this
      omega
  · rintro rfl
    exact .nil previous

theorem reads_record_iff {previous : Option Height} {head payload rest : Bytes} {hs : List Frame}
    (hhead : head.length = headerLength) (hpayload : payload.length = ofHeader head) :
    Reads previous (head ++ (payload ++ rest)) hs ↔
      ∃ f fs, hs = f :: fs ∧ readPayload previous payload = .ok f ∧
        Reads (some f.height) rest fs := by
  constructor
  · intro h
    generalize hbytes : head ++ (payload ++ rest) = bytes at h
    cases h with
    | nil =>
      have := congrArg List.length hbytes
      simp [hhead, headerLength] at this
    | @cons _ head' payload' rest' f fs hhead' hpayload' hf hrest =>
      -- both records start with the same header, so they are the same record
      obtain ⟨rfl, htail⟩ := List.append_inj hbytes (hhead.trans hhead'.symm)
      obtain ⟨rfl, rfl⟩ := List.append_inj htail (hpayload.trans hpayload'.symm)
      exact ⟨f, fs, rfl, hf, hrest⟩
  · rintro ⟨f, fs, rfl, hf, hrest⟩
    exact .cons hhead hpayload hf hrest

theorem reads_append_iff {previous : Option Height} {bytes more : Bytes} {fs hs : List Frame}
    (h : Reads previous bytes fs) :
    Reads previous (bytes ++ more) hs ↔
      ∃ gs, hs = fs ++ gs ∧ Reads (headBehind previous fs) more gs := by
  constructor
  · intro hall
    induction h generalizing hs with
    | nil previous => exact ⟨hs, rfl, hall⟩
    | @cons previous head payload rest f fs hhead hpayload hf hrest ih =>
      simp only [List.append_assoc] at hall
      obtain ⟨g, hs', rfl, hg, hrest'⟩ := (reads_record_iff hhead hpayload).mp hall
      obtain rfl : f = g := Except.ok.inj (hf.symm.trans hg)
      obtain ⟨gs, rfl, hgs⟩ := ih hrest'
      exact ⟨gs, rfl, hgs⟩
  · rintro ⟨gs, rfl, hgs⟩
    exact h.append hgs

theorem lt_of_readPayload {p : Height} {payload : Bytes} {f : Frame}
    (h : readPayload (some p) payload = .ok f) : p < f.height := by
  unfold readPayload at h
  split at h
  · simp at h
  · split at h
    · simp at h
    · rename_i r _ hheight
      simp only [ne_eq, not_not] at hheight
      simp only at h
      split at h
      · simp at h
      · rename_i hlt
        simp only [Except.ok.injEq] at h
        rw [← h, ← hheight]
        exact Nat.lt_of_not_le hlt

theorem Reads.rising {previous : Option Height} {bytes : Bytes} {fs : List Frame}
    (h : Reads previous bytes fs) :
    fs.Pairwise (·.height < ·.height) ∧ ∀ p ∈ previous, ∀ f ∈ fs, p < f.height := by
  induction h with
  | nil previous => simp
  | @cons previous head payload rest f fs hhead hpayload hf hrest ih =>
    obtain ⟨hrising, habove⟩ := ih
    refine ⟨List.pairwise_cons.mpr ⟨habove f.height rfl, hrising⟩, ?_⟩
    rintro p rfl g hg
    have hp := lt_of_readPayload hf
    rcases List.mem_cons.mp hg with rfl | hg
    · exact hp
    · exact Nat.lt_trans hp (habove f.height rfl g hg)

theorem headBehind_append_singleton (previous : Option Height) (fs : List Frame) (f : Frame) :
    headBehind previous (fs ++ [f]) = some f.height := by
  induction fs generalizing previous with
  | nil => rfl
  | cons g fs ih => exact ih (some g.height)

theorem headBehind_none (fs : List Frame) : headBehind none fs = fs.getLast?.map (·.height) := by
  rcases fs.eq_nil_or_concat with rfl | ⟨fs, f, rfl⟩
  · rfl
  · simp [headBehind_append_singleton]

/-! ### The record of a frame -/

/-- The document of a frame's record. -/
def document (f : Frame) : Node := Coded.write (LogRecord.mk f.height f)

theorem record_eq_ok_iff {f : Frame} {bytes : Bytes} :
    record f = .ok bytes ↔ (payload f).length < Word.narrowSize ∧
      bytes = header (payload f).length ++ payload f := by
  simp only [record]
  split
  · rename_i hlt
    simp [hlt, eq_comm]
  · rename_i hlt
    simp [hlt]

/-- **The record of a frame reads back exactly when its document nests no deeper than the reader
goes, and then as the frame's logged form.** -/
theorem readPayload_payload {f : Frame} (hf : f.Good) (hsize : (payload f).length < Word.narrowSize)
    {previous : Option Height} (hprevious : ∀ p ∈ previous, p < f.height) :
    readPayload previous (payload f) =
      if (document f).nesting ≤ Cbor.maxDepth then .ok f.logged else .error .record := by
  have hgood : (LogRecord.mk f.height f).Good := ⟨hf.height, hf⟩
  have hword : Word.narrowSize ≤ Word.size := by decide
  have hread : Cbor.read (payload f) =
      if (document f).nesting ≤ Cbor.maxDepth then some (document f).logged else none :=
    Cbor.read_write (LogRecord.writable hgood) (by simp only [payload] at hsize; omega)
  have hrecord := LogRecord.read_logged hgood .binary
  by_cases hnest : (document f).nesting ≤ Cbor.maxDepth
  · rw [if_pos hnest] at hread ⊢
    have hdecode : Cbor.decode (Coded.read (α := LogRecord)) (payload f) =
        some (LogRecord.mk f.height f.logged) := by
      simp only [Cbor.decode, hread, bind, Option.bind, document]
      exact congrArg Except.toOption hrecord
    simp only [readPayload, hdecode, Frame.logged_height, ne_eq, not_true, if_false]
    cases previous with
    | none => rfl
    | some p => exact if_neg (Nat.not_le.mpr (hprevious p rfl))
  · rw [if_neg hnest] at hread ⊢
    simp [readPayload, Cbor.decode, hread]

/-! ### The records of frames -/

/-- The records of frames, one after the other. -/
def records (fs : List Frame) : Bytes :=
  (fs.map fun f => header (payload f).length ++ payload f).flatten

/-- **The records of rising frames read back exactly when none of them nests deeper than the reader
goes, and then as the frames' logged forms.** -/
theorem reads_records_iff {fs gs : List Frame} (hgood : ∀ f ∈ fs, f.Good)
    (hsize : ∀ f ∈ fs, (payload f).length < Word.narrowSize) {previous : Option Height}
    (hrising : fs.Pairwise (·.height < ·.height))
    (habove : ∀ p ∈ previous, ∀ f ∈ fs, p < f.height) :
    Reads previous (records fs) gs ↔
      (∀ f ∈ fs, (document f).nesting ≤ Cbor.maxDepth) ∧ gs = fs.map Frame.logged := by
  induction fs generalizing previous gs with
  | nil => simp [records, reads_nil_iff]
  | cons f fs ih =>
    obtain ⟨hbehind, hrising⟩ := List.pairwise_cons.mp hrising
    have hf := readPayload_payload (hgood f (by simp)) (hsize f (by simp))
      fun p hp => habove p hp f (by simp)
    have hrest (hs : List Frame) : Reads (some f.height) (records fs) hs ↔
        (∀ g ∈ fs, (document g).nesting ≤ Cbor.maxDepth) ∧ hs = fs.map Frame.logged :=
      ih (fun g hg => hgood g (List.mem_cons_of_mem _ hg))
        (fun g hg => hsize g (List.mem_cons_of_mem _ hg)) hrising
        fun p hp g hg => Option.some.inj hp ▸ hbehind g hg
    have hbytes : records (f :: fs) = header (payload f).length ++ (payload f ++ records fs) := by
      simp [records]
    rw [hbytes, reads_record_iff (length_header _) (ofHeader_header (hsize f (by simp))).symm, hf,
      List.forall_mem_cons]
    by_cases hnest : (document f).nesting ≤ Cbor.maxDepth
    · simp only [hnest, if_true, true_and, List.map_cons]
      constructor
      · rintro ⟨g, hs, rfl, hg, hreads⟩
        obtain rfl := Except.ok.inj hg
        obtain ⟨hall, rfl⟩ := (hrest hs).mp hreads
        exact ⟨hall, rfl⟩
      · rintro ⟨hall, rfl⟩
        exact ⟨f.logged, fs.map Frame.logged, rfl, rfl, (hrest _).mpr ⟨hall, rfl⟩⟩
    · simp [hnest]

end FrameLog

end FrameScope
