/-
# Reading a blob is safe if memory is given

For a blob of less than `2 ^ 63` bytes no word of `Machine.read` ever lacks a result.  Memory may be
lacking, and before anything but the header is looked at: room for all announced sections is asked for at
once, so a blob of twelve bytes can ask for 206158430160 (`greedy`).  If this `reservation` is granted
the run comes to what `read` comes to, else it stops there: `Machine.read_eq`.  A blob that is read has
not asked for more than four times its own length.

The invariant is `Machine.Tracks`: the offset is that of the cursor and lies within the bytes.  Then
what remains is no less than zero, and as what is taken is compared with what remains before it is
added, no offset passes the end.  Sizes come from words of 32 bits, so that four times one of them
still is far from the last word of 64 bits.

`read_safe_given_room` adds what a blob that is read must hold: each section takes its header, its size
and the padding up to the next word boundary (`spans`), so a blob is not shorter than the headers of all
the sections that it announces.
-/
import UnitBake.Blob.Machine
import UnitBake.Proofs.Blob.Rewriting

namespace UnitBake.Blob

namespace Machine

/-! ## 1. Words -/

theorem add_eq_ok {a b : UInt64} (h : a.toNat + b.toNat < 0x10000000000000000) :
    ∃ w, add a b = .ok w ∧ w.toNat = a.toNat + b.toNat :=
  ⟨a + b, if_pos h, by rw [UInt64.toNat_add, Nat.mod_eq_of_lt h]⟩

theorem sub_eq_ok {a b : UInt64} (h : b.toNat ≤ a.toNat) :
    ∃ w, sub a b = .ok w ∧ w.toNat = a.toNat - b.toNat :=
  ⟨a - b, if_pos h, UInt64.toNat_sub_of_le a b h⟩

theorem mul_eq_ok {a b : UInt64} (h : a.toNat * b.toNat < 0x10000000000000000) :
    ∃ w, mul a b = .ok w ∧ w.toNat = a.toNat * b.toNat :=
  ⟨a * b, if_pos h, by rw [UInt64.toNat_mul, Nat.mod_eq_of_lt h]⟩

theorem slice_eq_ok {bytes : List UInt8} {start stop : UInt64} {n : Nat}
    (hstop : stop.toNat = start.toNat + n) (hend : stop.toNat ≤ bytes.length) :
    slice bytes start stop = .ok ((bytes.drop start.toNat).take n) := by
  have hle : start ≤ stop := UInt64.le_iff_toNat_le.mpr (by omega)
  have hn : (stop - start).toNat = n := by
    rw [UInt64.toNat_sub_of_le stop start hle]
    omega
  rw [slice, if_pos ⟨hle, hend⟩, hn]

/-! ## 2. No operation lacks a result -/

section

variable {bytes : List UInt8}

/-- **The invariant.**  The offset is that of the cursor, and lies within the bytes. -/
structure Tracks (bytes : List UInt8) (offset : UInt64) (c : Cursor) : Prop where
  offset : offset.toNat = c.offset
  rest : bytes.drop c.offset = c.rest
  within : c.offset ≤ bytes.length

/-- The run comes to what the reader comes to, and goes on from the same place. -/
inductive Follows {α : Type} (bytes : List UInt8) :
    Run (α × UInt64) → Except Error (α × Cursor) → Prop where
  | ok {a : α} {offset : UInt64} {c : Cursor} (h : Tracks bytes offset c) :
      Follows bytes (.ok (a, offset)) (.ok (a, c))
  | refused (e : Error) : Follows bytes (.error (.refused e)) (.error e)

theorem Follows.bind {α β : Type} {x : Run (α × UInt64)} {y : Except Error (α × Cursor)}
    {f : α × UInt64 → Run (β × UInt64)} {g : α × Cursor → Except Error (β × Cursor)}
    (h : Follows bytes x y)
    (hf : ∀ a offset c, y = .ok (a, c) → Tracks bytes offset c →
      Follows bytes (f (a, offset)) (g (a, c))) :
    Follows bytes (x >>= f) (y >>= g) := by
  cases h with
  | ok h => exact hf _ _ _ rfl h
  | refused e => exact .refused e

/-- What is made of the result in the end needs no place. -/
theorem Follows.bind_eq {α β : Type} {x : Run (α × UInt64)} {y : Except Error (α × Cursor)}
    {f : α × UInt64 → Run β} {g : α × Cursor → Except Error β} (h : Follows bytes x y)
    (hf : ∀ a offset c, y = .ok (a, c) → Tracks bytes offset c →
      f (a, offset) = (g (a, c)).mapError .refused) :
    x >>= f = (y >>= g).mapError .refused := by
  cases h with
  | ok h => exact hf _ _ _ rfl h
  | refused e => rfl

theorem tracks_of_le {offset : UInt64} (h : offset.toNat ≤ bytes.length) :
    Tracks bytes offset ⟨offset.toNat, bytes.drop offset.toNat⟩ :=
  ⟨rfl, rfl, h⟩

/-- A step on words alone has its result. -/
theorem Follows.step {α β : Type} {x : Run β} {b : β} {f : β → Run (α × UInt64)}
    {y : Except Error (α × Cursor)} (hx : x = .ok b) (h : Follows bytes (f b) y) :
    Follows bytes (x >>= f) y := by
  rw [hx]
  exact h

/-- **Bytes are taken without a stop**, or refused for what is missing. -/
theorem follows_take (hbytes : bytes.length < 2 ^ 63) {offset : UInt64} {c : Cursor}
    (h : Tracks bytes offset c) (n : UInt64) :
    Follows bytes (take bytes offset n) (c.take n.toNat) := by
  obtain ⟨hoffset, hrest, hwithin⟩ := h
  have hlength : (UInt64.ofNat bytes.length).toNat = bytes.length :=
    UInt64.toNat_ofNat_of_lt' (by simp [UInt64.size]; omega)
  have hleft : c.rest.length = bytes.length - c.offset := by rw [← hrest, List.length_drop]
  obtain ⟨remaining, hremaining, hvalue⟩ : ∃ w,
      sub (UInt64.ofNat bytes.length) offset = .ok w ∧
        w.toNat = (UInt64.ofNat bytes.length).toNat - offset.toNat :=
    sub_eq_ok (by omega)
  have hroom : remaining.toNat = c.rest.length := by omega
  rw [take, hremaining, Cursor.take, ← hroom]
  simp only [bind, Except.bind, ← UInt64.lt_iff_toNat_lt]
  by_cases hlt : remaining < n
  · obtain ⟨needed, hneeded, hmissing⟩ : ∃ w, sub n remaining = .ok w ∧
        w.toNat = n.toNat - remaining.toNat :=
      sub_eq_ok (Nat.le_of_lt (UInt64.lt_iff_toNat_lt.mp hlt))
    rw [if_pos hlt, if_pos hlt, hneeded, ← hmissing, ← hoffset]
    exact .refused _
  · have hn : n.toNat ≤ c.rest.length := by
      rw [← hroom]
      exact Nat.le_of_not_lt fun h => hlt (UInt64.lt_iff_toNat_lt.mpr h)
    obtain ⟨stop, hadd, hstop⟩ : ∃ w, add offset n = .ok w ∧
        w.toNat = offset.toNat + n.toNat :=
      add_eq_ok (by omega)
    have hend : stop.toNat = c.offset + n.toNat := by rw [hstop, hoffset]
    have hslice : slice bytes offset stop = .ok ((bytes.drop offset.toNat).take n.toNat) :=
      slice_eq_ok hstop (by omega)
    rw [hoffset, hrest] at hslice
    have hdrop : bytes.drop (c.offset + n.toNat) = c.rest.drop n.toNat := by
      rw [← hrest, List.drop_drop]
    rw [if_neg hlt, if_neg hlt, hadd]
    simp only [hslice]
    exact .ok ⟨hend, hdrop, by simp only; omega⟩

/-- What is taken leads no further than the end. -/
theorem offset_of_take (hbytes : bytes.length < 2 ^ 63) {offset n next : UInt64}
    {front : List UInt8} (hoffset : offset.toNat ≤ bytes.length)
    (h : take bytes offset n = .ok (front, next)) :
    next.toNat = offset.toNat + n.toNat ∧ next.toNat ≤ bytes.length := by
  have hfollows := follows_take hbytes (tracks_of_le hoffset) n
  rw [h] at hfollows
  cases htake : Cursor.take ⟨offset.toNat, bytes.drop offset.toNat⟩ n.toNat with
  | error e =>
    rw [htake] at hfollows
    cases hfollows
  | ok taken =>
    rw [htake] at hfollows
    cases hfollows with
    | ok hnext =>
      obtain ⟨-, -, hmoved⟩ := Cursor.take_eq_ok htake
      exact ⟨hnext.offset.trans hmoved, hnext.offset ▸ hnext.within⟩

theorem header_eq_ok {α : Type} (ofBytes : List UInt8 → α) {front : List UInt8}
    (h : front.length = headerSize) : header ofBytes front = .ok (ofBytes front) :=
  if_pos h

/-- The gap up to the next word boundary is one of one to four bytes. -/
theorem padding_eq_ok (offset : UInt64) :
    ∃ w, padding offset = .ok w ∧ w.toNat = Blob.padding offset.toNat := by
  have hmod : (offset % 4).toNat = offset.toNat % 4 := UInt64.toNat_mod offset 4
  obtain ⟨gap, hgap, hvalue⟩ : ∃ w, sub 4 (offset % 4) = .ok w ∧
      w.toNat = (4 : UInt64).toNat - (offset % 4).toNat := by
    refine sub_eq_ok ?_
    have hfour : (4 : UInt64).toNat = 4 := rfl
    omega
  refine ⟨gap % 4, by rw [padding, hgap]; rfl, ?_⟩
  rw [UInt64.toNat_mod, hvalue, hmod]
  rfl

/-- How much memory is asked for: room for all sections that the header tells, whether or not they are
there, and nothing if the header is refused. -/
def reservation (bytes : List UInt8) : Nat :=
  match (Cursor.mk 0 bytes).take headerSize with
  | .error _ => 0
  | .ok (headerBytes, _) =>
    let header := Header.ofBytes headerBytes
    if header.version = currentVersion then sectionSize * header.sections.toNat else 0

/-- A word of 32 bits times a small factor is far from the last word of 64 bits. -/
theorem mul_widened_eq_ok (a : UInt32) {b : UInt64} (hb : b.toNat ≤ 48) :
    ∃ w, mul a.toUInt64 b = .ok w ∧ w.toNat = a.toNat * b.toNat := by
  have ha : a.toUInt64.toNat = a.toNat := UInt32.toNat_toUInt64 a
  have hbound : a.toNat * b.toNat ≤ 2 ^ 32 * 48 :=
    Nat.mul_le_mul (Nat.le_of_lt a.toNat_lt) hb
  rw [← ha] at hbound ⊢
  exact mul_eq_ok (by omega)

/-- **Memory is all that a request for room can lack**: its size is no product beyond the last word. -/
theorem reserve_eq (grants : Nat → Bool) (count : UInt32) :
    reserve grants count.toUInt64 =
      if sectionSize * count.toNat = 0 ∨ grants (sectionSize * count.toNat) then .ok ()
      else .error (.outOfMemory (sectionSize * count.toNat)) := by
  have hcount := count.toNat_lt
  have hfactor : (UInt64.ofNat sectionSize).toNat = sectionSize := rfl
  obtain ⟨size, hmul, hvalue⟩ := mul_widened_eq_ok count (Nat.le_of_eq hfactor)
  rw [hfactor, Nat.mul_comm] at hvalue
  have hsmall : ¬ 0x8000000000000000 ≤ sectionSize * count.toNat := by
    rw [sectionSize]
    omega
  have hzero : size = 0 ↔ size.toNat = 0 := by
    rw [← UInt64.toNat_inj]
    rfl
  rw [reserve, hmul]
  simp only [bind, Except.bind, hzero, hvalue, if_neg hsmall]

/-- **A section is read without a stop**, or refused. -/
theorem follows_readSection (hbytes : bytes.length < 2 ^ 63) {offset : UInt64} {c : Cursor}
    (h : Tracks bytes offset c) :
    Follows bytes (readSection bytes offset) (Blob.readSection c) := by
  rw [readSection, Blob.readSection]
  refine (follows_take hbytes h 12).bind fun front offset₁ c₁ hfront h₁ => ?_
  refine .step (header_eq_ok _ (Cursor.take_eq_ok hfront).2.1) ?_
  simp only
  generalize SectionHeader.ofBytes front = header
  have hfour : (4 : UInt64).toNat = 4 := rfl
  have hsize : header.size.toUInt64.toNat = header.size.toNat := UInt32.toNat_toUInt64 _
  obtain ⟨ownersSize, hmul, howners⟩ :=
    mul_widened_eq_ok header.instances (Nat.le_trans (Nat.le_of_eq hfour) (by decide))
  rw [hfour, Nat.mul_comm] at howners
  refine .step hmul ?_
  simp only [← howners, ← hsize, ← UInt64.lt_iff_toNat_lt]
  by_cases hlt : header.size.toUInt64 < ownersSize
  · rw [if_pos hlt, if_pos hlt]
    exact .refused _
  rw [if_neg hlt, if_neg hlt]
  refine (follows_take hbytes h₁ ownersSize).bind fun ownerBytes offset₂ c₂ _ h₂ => ?_
  have hle : ownersSize.toNat ≤ header.size.toUInt64.toNat :=
    Nat.le_of_not_lt fun h => hlt (UInt64.lt_iff_toNat_lt.mpr h)
  obtain ⟨payloadSize, hsub, hpayload⟩ := sub_eq_ok hle
  refine .step hsub ?_
  simp only [← hpayload]
  refine (follows_take hbytes h₂ payloadSize).bind fun payload offset₃ c₃ _ h₃ => ?_
  obtain ⟨pad, hpadding, hpad⟩ := padding_eq_ok offset₃
  refine .step hpadding ?_
  simp only [← h₃.offset, ← hpad]
  refine (follows_take hbytes h₃ pad).bind fun _ offset₄ c₄ _ h₄ => ?_
  exact .ok h₄

/-- So are any number of sections. -/
theorem follows_readSections (hbytes : bytes.length < 2 ^ 63) : ∀ (n : Nat) {offset : UInt64}
    {c : Cursor}, Tracks bytes offset c →
      Follows bytes (readSections bytes n offset) (Blob.readSections n c)
  | 0, _, _, h => .ok h
  | n + 1, _, _, h =>
    (follows_readSection hbytes h).bind fun _ _ _ _ h₁ =>
      (follows_readSections hbytes n h₁).bind fun _ _ _ _ h₂ => .ok h₂

/-- **If memory is given a blob is read without a stop**, or refused; else the run stops at the
request. -/
theorem read_eq (hbytes : bytes.length < 2 ^ 63) (grants : Nat → Bool) :
    read bytes grants =
      if reservation bytes = 0 ∨ grants (reservation bytes) then
        (Blob.read bytes).mapError .refused
      else .error (.outOfMemory (reservation bytes)) := by
  have hstart : Tracks bytes 0 ⟨0, bytes⟩ := ⟨rfl, rfl, Nat.zero_le _⟩
  have hfollows : Follows bytes (take bytes 0 12) (Cursor.take ⟨0, bytes⟩ headerSize) :=
    follows_take hbytes hstart 12
  rw [read, Blob.read, reservation]
  generalize take bytes 0 12 = run at hfollows ⊢
  cases hfront : Cursor.take ⟨0, bytes⟩ headerSize with
  | error e =>
    rw [hfront] at hfollows
    cases hfollows
    rfl
  | ok taken =>
    rw [hfront] at hfollows
    cases hfollows with
    | @ok front offset c h =>
      simp only [bind, Except.bind, header_eq_ok Header.ofBytes (Cursor.take_eq_ok hfront).2.1]
      by_cases hversion : (Header.ofBytes front).version = currentVersion
      · simp only [hversion, ne_eq, not_true_eq_false, if_false, if_true, reserve_eq]
        by_cases hgiven : sectionSize * (Header.ofBytes front).sections.toNat = 0 ∨
            grants (sectionSize * (Header.ofBytes front).sections.toNat) = true
        · rw [if_pos hgiven, if_pos hgiven]
          exact (follows_readSections hbytes _ h).bind_eq fun _ _ _ _ _ => rfl
        · rw [if_neg hgiven, if_neg hgiven]
      · simp only [ne_eq, hversion, not_false_eq_true, if_true, if_false, true_or]
        rfl

end

end Machine

/-! ## 3. What a blob must hold -/

/-- The bytes that sections take, the first of which stands at the given offset: each its header, its
size, and the padding up to the next word boundary. -/
def spans (offset : Nat) : List Section → Nat
  | [] => 0
  | s :: rest =>
    let size := headerSize + s.header.size.toNat
    let span := size + padding (offset + size)
    span + spans (offset + span) rest

/-- Sections take as many bytes as their contents are written to. -/
theorem length_writeSections : ∀ {sections : List Section} {offset : Nat},
    (∀ s ∈ sections, s.Told) →
      (writeSections offset (sections.map Section.content)).length = spans offset sections
  | [], _, _ => rfl
  | s :: rest, offset, h => by
    obtain ⟨hs, hrest⟩ := List.forall_mem_cons.mp h
    have hspan : (s.content.write offset).length = headerSize + s.header.size.toNat +
        padding (offset + (headerSize + s.header.size.toNat)) := by
      rw [Content.length_write, Content.length_body, hs.size_content]
    rw [List.map_cons, writeSections, List.length_append, length_writeSections hrest, hspan, spans]

/-- Every section takes its header at least. -/
theorem headers_le_spans : ∀ (sections : List Section) (offset : Nat),
    headerSize * sections.length ≤ spans offset sections
  | [], _ => Nat.le_refl 0
  | s :: rest, offset => by
    have hrest := headers_le_spans rest (offset + (headerSize + s.header.size.toNat +
      padding (offset + (headerSize + s.header.size.toNat))))
    rw [List.length_cons, spans, Nat.mul_succ]
    omega

/-- A blob that is read has room for its header and its sections. -/
theorem Parsed.ReadFrom.spans_le {r : Parsed} {b : List UInt8} (h : r.ReadFrom b) :
    headerSize + spans headerSize r.sections ≤ b.length := by
  have hlength := h.length_bytes_le
  rw [Parsed.bytes, List.length_append, Header.length_bytes, Parsed.contents,
    length_writeSections h.told] at hlength
  exact hlength

/-- A blob that is read has not asked for more than four times its length. -/
theorem Parsed.ReadFrom.reservation_le {r : Parsed} {b : List UInt8} (h : r.ReadFrom b) :
    Machine.reservation b ≤ 4 * b.length := by
  obtain ⟨rest, rfl, -⟩ := h.laidOut
  have hspans := h.spans_le
  have hheaders := headers_le_spans r.sections headerSize
  have hsize : headerSize = 12 := rfl
  rw [hsize] at hspans hheaders
  rw [h.count] at hheaders
  rw [Machine.reservation, Cursor.take_append _ _ _ (Header.length_bytes _)]
  simp only [Header.ofBytes_bytes, h.version, if_true, Machine.sectionSize]
  omega

/-- **Reading any bytes is safe if the memory that is asked for is given.**

No step of the reader with words leads past the end.  If nothing is asked for or the request is granted,
the run comes to the blob or to the refusal that `read` comes to: no operation lacks a result.  If the
request is not granted the run stops at it, whatever stands behind the header.

A blob that is read has the sections that its header tells, each with the parts that its own header
tells, is no shorter than all of them with their padding, and has not asked for more than four times its
length. -/
theorem read_safe_given_room (bytes : List UInt8) (hbytes : bytes.length < 2 ^ 63)
    (grants : Nat → Bool) :
    (∀ offset n next : UInt64, ∀ front, offset.toNat ≤ bytes.length →
      Machine.take bytes offset n = .ok (front, next) →
        next.toNat = offset.toNat + n.toNat ∧ next.toNat ≤ bytes.length) ∧
      (Machine.reservation bytes = 0 ∨ grants (Machine.reservation bytes) = true →
        (∃ r, Machine.read bytes grants = .ok r ∧ read bytes = .ok r) ∨
          ∃ e, Machine.read bytes grants = .error (.refused e) ∧ read bytes = .error e) ∧
      (Machine.reservation bytes ≠ 0 ∧ grants (Machine.reservation bytes) = false →
        Machine.read bytes grants = .error (.outOfMemory (Machine.reservation bytes))) ∧
      ∀ r, read bytes = .ok r →
        r.sections.length = r.header.sections.toNat ∧
          (∀ s ∈ r.sections, s.ownerBytes.length = 4 * s.header.instances.toNat ∧
            s.ownerBytes.length ≤ s.header.size.toNat ∧
            s.payload.length = s.header.size.toNat - 4 * s.header.instances.toNat) ∧
          headerSize + spans headerSize r.sections ≤ bytes.length ∧
          headerSize * (1 + r.header.sections.toNat) ≤ bytes.length ∧
          Machine.reservation bytes ≤ 4 * bytes.length := by
  refine ⟨fun _ _ _ _ hoffset htake => Machine.offset_of_take hbytes hoffset htake, ?_, ?_, ?_⟩
  · intro hgiven
    rw [Machine.read_eq hbytes, if_pos hgiven]
    cases read bytes with
    | error e => exact Or.inr ⟨e, rfl, rfl⟩
    | ok r => exact Or.inl ⟨r, rfl, rfl⟩
  · rintro ⟨hasked, hdenied⟩
    rw [Machine.read_eq hbytes, if_neg (by simp [hasked, hdenied])]
  · intro r hread
    have hfrom := readFrom_of_read hread
    have hspans := hfrom.spans_le
    have hheaders := headers_le_spans r.sections headerSize
    refine ⟨hfrom.count, ?_, hspans, ?_, hfrom.reservation_le⟩
    · intro s hs
      obtain ⟨howners, hsize⟩ := hfrom.told s hs
      omega
    · rw [hfrom.count] at hheaders
      rw [Nat.mul_add]
      omega

/-- A blob that announces all the sections that a word can tell, and ends there. -/
def greedy : List UInt8 := [1, 0, 0, 0, 1, 0, 0, 0, 0xff, 0xff, 0xff, 0xff]

/-- On a machine with 256 GiB the greedy blob is refused for the first header that it lacks; with 32 GiB
the run stops at the request.  The untidy one is read there, and holds its two sections and a byte
more. -/
theorem read_safe_given_room_greedy :
    Machine.read greedy (Machine.withMemory (2 ^ 38)) = .error (.refused (.truncated 12 12)) ∧
      Machine.read greedy (Machine.withMemory (2 ^ 35)) = .error (.outOfMemory 206158430160) ∧
      ∃ r, Machine.read untidy (Machine.withMemory (2 ^ 35)) = .ok r ∧ r.sections.length = 2 ∧
        headerSize + spans headerSize r.sections = 44 ∧ 44 ≤ untidy.length := by
  obtain ⟨-, hgreedy, -, -⟩ := read_safe_given_room greedy (by decide) (Machine.withMemory (2 ^ 38))
  obtain ⟨-, -, hstopped, -⟩ := read_safe_given_room greedy (by decide) (Machine.withMemory (2 ^ 35))
  obtain ⟨-, huntidy, -, hheld⟩ := read_safe_given_room untidy (by decide) (Machine.withMemory (2 ^ 35))
  have hrefused : read greedy = .error (.truncated 12 12) := rfl
  have hasked : Machine.reservation greedy = 206158430160 := rfl
  rw [hasked] at hgreedy hstopped
  obtain ⟨r, hread, hcount, hspans⟩ : ∃ r, read untidy = .ok r ∧ r.header.sections = 2 ∧
      headerSize + spans headerSize r.sections = 44 :=
    ⟨_, rfl, by decide +kernel, by decide +kernel⟩
  obtain ⟨hlength, -, hroom, -, -⟩ := hheld r hread
  refine ⟨?_, hstopped ⟨by decide, by decide⟩, r, ?_, ?_, hspans, hspans ▸ hroom⟩
  · rcases hgreedy (Or.inr (by decide)) with ⟨r, -, hok⟩ | ⟨e, hrun, herror⟩
    · rw [hrefused] at hok
      cases hok
    · rw [hrun, Except.error.inj (hrefused.symm.trans herror)]
  · rcases huntidy (Or.inr (by decide +kernel)) with ⟨r', hrun, hok⟩ | ⟨e, -, herror⟩
    · rw [hrun, Except.ok.inj (hread.symm.trans hok)]
    · rw [hread] at herror
      cases herror
  · rw [hlength, hcount]
    rfl

/-- **A blob of twelve bytes can stop the reader**: with 32 GiB the greedy one is neither read nor
refused. -/
theorem greedy_not_answered :
    ¬ ((∃ r, Machine.read greedy (Machine.withMemory (2 ^ 35)) = .ok r) ∨
      ∃ e, Machine.read greedy (Machine.withMemory (2 ^ 35)) = .error (.refused e)) := by
  have hrun : Machine.read greedy (Machine.withMemory (2 ^ 35)) = .error (.outOfMemory 206158430160) := by
    rfl
  rw [hrun]
  rintro (⟨r, h⟩ | ⟨e, h⟩)
  · cases h
  · cases h

end UnitBake.Blob
