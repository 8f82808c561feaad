import LetLang.Text.Utf8

/-
  Reading UTF-8 undoes writing it.

  A character is written as a lead byte and up to three
  continuation bytes. The lead byte announces how many there
  are and where the first of them may lie; that this is kept
  needs the character to have no shorter form, to be no
  surrogate, and not to be too large. Each continuation byte
  brings six bits, until the character is complete.

  Main declarations:
    * `Text.Utf8.step_continuation`
    * `Text.Utf8.foldlM_utf8EncodeChar`
    * `Text.Utf8.decode_toUTF8`
-/

namespace LetLang

namespace Text.Utf8

------------------------------------------------------------
-- Lead Bytes
------------------------------------------------------------

theorem lead?_ofNat
    {n : Nat}
    (hByte : n < 256) :
    lead? (UInt8.ofNat n) =
      if n < 0x80 then
        some ⟨0, n, 0x80, 0xbf⟩
      else if n < 0xc2 then
        none
      else if n < 0xe0 then
        some ⟨1, n - 0xc0, 0x80, 0xbf⟩
      else if n < 0xf0 then
        some ⟨2, n - 0xe0,
          if n = 0xe0 then 0xa0 else 0x80,
          if n = 0xed then 0x9f else 0xbf⟩
      else if n < 0xf5 then
        some ⟨3, n - 0xf0,
          if n = 0xf0 then 0x90 else 0x80,
          if n = 0xf4 then 0x8f else 0xbf⟩
      else
        none := by
  have hValue : (UInt8.ofNat n).toNat = n := by
    rw [UInt8.toNat_ofNat', Nat.mod_eq_of_lt hByte]
  unfold lead?
  simp only [UInt8.lt_iff_toNat_lt, ← UInt8.toNat_inj,
    hValue, UInt8.reduceToNat]

------------------------------------------------------------
-- Continuation Bytes
------------------------------------------------------------

/- The continuation byte of six bits. -/
def continuation
    (bits : Nat) : UInt8 :=
  UInt8.ofNat (bits + 0x80)

theorem step_lead
    {reader : Reader}
    {byte : UInt8}
    {lead : Lead}
    (hPending : reader.pending = none)
    (hLead : lead? byte = some lead) :
    reader.step byte =
      .ok (reader.accept
        ⟨byte, 1, lead.missing, lead.bits, lead.low,
          lead.high⟩) := by
  unfold Reader.step
  simp only [hPending, hLead]

/- A byte in the range of the next one is accepted. -/
theorem step_continuation
    {reader : Reader}
    {progress : Progress}
    {bits : Nat}
    (hPending : reader.pending = some progress)
    (hLow : progress.low.toNat ≤ bits + 0x80)
    (hHigh : bits + 0x80 ≤ progress.high.toNat) :
    reader.step (continuation bits) =
      .ok (reader.accept
        ⟨progress.first, progress.count + 1,
          progress.missing - 1, progress.bits * 64 + bits,
          0x80, 0xbf⟩) := by
  have hByte : bits + 0x80 < 256 :=
    Nat.lt_of_le_of_lt hHigh progress.high.toNat_lt
  have hValue :
      (continuation bits).toNat = bits + 0x80 := by
    unfold continuation
    rw [UInt8.toNat_ofNat', Nat.mod_eq_of_lt hByte]
  have hRange :
      progress.low ≤ continuation bits ∧
        continuation bits ≤ progress.high := by
    rw [UInt8.le_iff_toNat_le, UInt8.le_iff_toNat_le, hValue]
    exact ⟨hLow, hHigh⟩
  unfold Reader.step
  simp only [hPending]
  rw [if_pos hRange, hValue, Nat.add_sub_cancel]

/-
  Behind an accepted byte the missing ones are read, and the
  character is complete. The range of the next byte is known
  from the lead; behind it every six bits are in range.
-/
theorem foldlM_accept
    {groups : List Nat}
    {progress : Progress}
    (reader : Reader)
    (hMissing : progress.missing = groups.length)
    (hNext :
      ∀ bits ∈ groups.head?,
        progress.low.toNat ≤ bits + 0x80 ∧
          bits + 0x80 ≤ progress.high.toNat)
    (hLater : ∀ bits ∈ groups.tail, bits < 64) :
    (groups.map continuation).foldlM Reader.step
        (reader.accept progress) =
      .ok
        ⟨Char.ofNat
            (groups.foldl (fun value bits => value * 64 + bits)
              progress.bits)
            :: reader.decoded,
          none, reader.position + 1 + groups.length⟩ := by
  induction groups generalizing reader progress with
  | nil =>
      have hNone : progress.missing = 0 := hMissing
      unfold Reader.accept
      rw [if_pos hNone]
      rfl
  | cons bits groups ih =>
      rcases hNext bits rfl with ⟨hLow, hHigh⟩
      have hAccept :
          reader.accept progress =
            ⟨reader.decoded, some progress,
              reader.position + 1⟩ := by
        unfold Reader.accept
        rw [if_neg (by simp [hMissing])]
      rw [hAccept, List.map_cons, List.foldlM_cons,
        step_continuation rfl hLow hHigh]
      refine (ih ⟨_, _, _⟩ ?_ ?_ ?_).trans ?_
      · simp [hMissing]
      · intro other hMem
        have hSix :=
          hLater other (List.mem_of_mem_head? hMem)
        simp only [UInt8.reduceToNat]
        omega
      · intro other hMem
        exact hLater other (List.mem_of_mem_tail hMem)
      · simp only [List.foldl_cons, List.length_cons]
        rw [Nat.add_right_comm (reader.position + 1)]
        rfl

/-
  A lead byte and the continuation bytes that it announces
  are read as the character of their bits.
-/
theorem foldlM_lead
    {byte : UInt8}
    {lead : Lead}
    {value : Nat}
    (groups : List Nat)
    (hLead : lead? byte = some lead)
    (hMissing : lead.missing = groups.length)
    (hNext :
      ∀ bits ∈ groups.head?,
        lead.low.toNat ≤ bits + 0x80 ∧
          bits + 0x80 ≤ lead.high.toNat)
    (hLater : ∀ bits ∈ groups.tail, bits < 64)
    (hValue :
      groups.foldl (fun value bits => value * 64 + bits)
          lead.bits =
        value)
    (decoded : List Char)
    (position : Nat) :
    (byte :: groups.map continuation).foldlM Reader.step
        ⟨decoded, none, position⟩ =
      .ok
        ⟨Char.ofNat value :: decoded, none,
          position + 1 + groups.length⟩ := by
  subst hValue
  rw [List.foldlM_cons, step_lead rfl hLead]
  exact foldlM_accept _ hMissing hNext hLater

------------------------------------------------------------
-- Characters
------------------------------------------------------------

/- Two bytes are read as a character of eleven bits. -/
theorem foldlM_two
    {n : Nat}
    (hLow : 0x80 ≤ n)
    (hHigh : n < 0x800)
    (decoded : List Char)
    (position : Nat) :
    [UInt8.ofNat (n / 64 % 32 + 192),
        continuation (n % 64)].foldlM Reader.step
        ⟨decoded, none, position⟩ =
      .ok ⟨Char.ofNat n :: decoded, none, position + 2⟩ := by
  have hLead :=
    lead?_ofNat (n := n / 64 % 32 + 192) (by omega)
  rw [if_neg (by omega), if_neg (by omega),
    if_pos (by omega)] at hLead
  refine
    foldlM_lead [n % 64] hLead rfl ?_ nofun ?_ decoded
      position
  · intro bits hMem
    cases hMem
    simp only [UInt8.reduceToNat]
    omega
  · simp only [List.foldl_cons, List.foldl_nil]
    omega

/- Three bytes are read as any other but a surrogate. -/
theorem foldlM_three
    {n : Nat}
    (hLow : 0x800 ≤ n)
    (hHigh : n < 0x10000)
    (hValid : n < 0xd800 ∨ 0xdfff < n)
    (decoded : List Char)
    (position : Nat) :
    [UInt8.ofNat (n / 4096 % 16 + 224),
        continuation (n / 64 % 64),
        continuation (n % 64)].foldlM Reader.step
        ⟨decoded, none, position⟩ =
      .ok ⟨Char.ofNat n :: decoded, none, position + 3⟩ := by
  have hLead :=
    lead?_ofNat (n := n / 4096 % 16 + 224) (by omega)
  rw [if_neg (by omega), if_neg (by omega),
    if_neg (by omega), if_pos (by omega)] at hLead
  refine
    foldlM_lead [n / 64 % 64, n % 64] hLead rfl ?_ ?_ ?_
      decoded position
  · -- No shorter form, and no surrogate.
    intro bits hMem
    cases hMem
    dsimp only
    constructor
    · split <;> simp only [UInt8.reduceToNat] <;> omega
    · split <;> simp only [UInt8.reduceToNat] <;> omega
  · intro bits hMem
    rw [List.mem_singleton.mp hMem]
    omega
  · simp only [List.foldl_cons, List.foldl_nil]
    omega

/- Four bytes are read as any larger one there is. -/
theorem foldlM_four
    {n : Nat}
    (hLow : 0x10000 ≤ n)
    (hHigh : n < 0x110000)
    (decoded : List Char)
    (position : Nat) :
    [UInt8.ofNat (n / 262144 % 8 + 240),
        continuation (n / 4096 % 64),
        continuation (n / 64 % 64),
        continuation (n % 64)].foldlM Reader.step
        ⟨decoded, none, position⟩ =
      .ok ⟨Char.ofNat n :: decoded, none, position + 4⟩ := by
  have hLead :=
    lead?_ofNat (n := n / 262144 % 8 + 240) (by omega)
  rw [if_neg (by omega), if_neg (by omega),
    if_neg (by omega), if_neg (by omega),
    if_pos (by omega)] at hLead
  refine
    foldlM_lead [n / 4096 % 64, n / 64 % 64, n % 64] hLead
      rfl ?_ ?_ ?_ decoded position
  · -- No shorter form, and not too large.
    intro bits hMem
    cases hMem
    dsimp only
    constructor
    · split <;> simp only [UInt8.reduceToNat] <;> omega
    · split <;> simp only [UInt8.reduceToNat] <;> omega
  · intro bits hMem
    simp only [List.tail_cons, List.mem_cons,
      List.not_mem_nil, or_false] at hMem
    omega
  · simp only [List.foldl_cons, List.foldl_nil]
    omega

/- The bytes of a character are read as this character. -/
theorem foldlM_utf8EncodeChar
    (c : Char)
    (decoded : List Char)
    (position : Nat) :
    (String.utf8EncodeChar c).foldlM Reader.step
        ⟨decoded, none, position⟩ =
      .ok ⟨c :: decoded, none,
        position + (String.utf8EncodeChar c).length⟩ := by
  have hValid :
      c.toNat < 0xd800 ∨
        (0xdfff < c.toNat ∧ c.toNat < 0x110000) :=
    c.valid
  have hSame : Char.ofNat c.toNat = c := Char.ofNat_toNat c
  have hCode : c.val.toNat = c.toNat := rfl
  unfold String.utf8EncodeChar
  rw [hCode]
  generalize c.toNat = n at hValid hSame
  subst hSame
  dsimp only
  split
  · have hLead := lead?_ofNat (n := n) (by omega)
    rw [if_pos (by omega)] at hLead
    exact
      foldlM_lead [] hLead rfl nofun nofun rfl decoded
        position
  · split
    · exact foldlM_two (by omega) (by omega) decoded position
    · split
      · exact
          foldlM_three (by omega) (by omega) (by omega)
            decoded position
      · exact
          foldlM_four (by omega) (by omega) decoded position

------------------------------------------------------------
-- Texts
------------------------------------------------------------

/- The bytes of a text are read as its characters. -/
theorem foldlM_flatMap
    (text decoded : List Char)
    (position : Nat) :
    (text.flatMap String.utf8EncodeChar).foldlM Reader.step
        ⟨decoded, none, position⟩ =
      .ok ⟨text.reverse ++ decoded, none,
        position
          + (text.flatMap
              String.utf8EncodeChar).length⟩ := by
  induction text generalizing decoded position with
  | nil => rfl
  | cons c text ih =>
      rw [List.flatMap_cons, List.foldlM_append,
        foldlM_utf8EncodeChar]
      refine (ih _ _).trans ?_
      rw [List.reverse_cons, List.append_assoc,
        List.length_append, Nat.add_assoc]
      rfl

/- Reading what a text is written as gives the text. -/
theorem decode_toUTF8
    (text : String) :
    decode text.toUTF8.data.toList = .ok text.toList := by
  have hBytes :
      text.toUTF8.data.toList =
        text.toList.flatMap String.utf8EncodeChar := by
    rw [String.toUTF8_eq_toByteArray,
      ← String.utf8Encode_toList]
    exact List.toList_data_toByteArray
  unfold decode Reader.start
  rw [hBytes, foldlM_flatMap]
  exact congrArg Except.ok (by simp)

end Text.Utf8

end LetLang
