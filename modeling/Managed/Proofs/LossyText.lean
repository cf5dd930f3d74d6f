import Mathlib.Tactic.NormNum
import Managed.Text.Utf8

namespace Managed.Text.Utf8

/-- A byte below 0x80 is a character of its own. -/
theorem decodeLossyChars_ascii {bytes : Bytes} (ascii : ∀ byte ∈ bytes, byte < 0x80) :
    decodeLossyChars bytes = bytes.map fun byte => Char.ofNat byte.toNat := by
  induction bytes with
  | nil => simp [decodeLossyChars]
  | cons byte rest ih =>
    rw [List.forall_mem_cons] at ascii
    rw [decodeLossyChars, if_pos ascii.1, ih ascii.2, List.map_cons]

/-- What the bytes that follow the first one may add to the number of a character. -/
theorem readFollowing_bounds {following low high number : Nat} {bytes : Bytes} {character : Char}
    (least : 0x80 ≤ low) (most : high ≤ 0xBF)
    (read : (readFollowing (following + 1) low high number bytes).1 = some character) :
    ∃ code, character = Char.ofNat code ∧
      (number * 64 + (low - 0x80)) * 64 ^ following ≤ code ∧
      code < (number * 64 + (high - 0x80) + 1) * 64 ^ following := by
  induction following generalizing low high number bytes with
  | zero =>
    cases bytes with
    | nil => simp [readFollowing] at read
    | cons byte rest =>
      simp only [readFollowing] at read
      split at read
      · rename_i inside
        obtain rfl := Option.some.inj read
        exact ⟨_, rfl, by omega, by omega⟩
      · cases read
  | succ following ih =>
    cases bytes with
    | nil => simp [readFollowing] at read
    | cons byte rest =>
      rw [readFollowing] at read
      split at read
      · rename_i inside
        obtain ⟨code, same, above, below⟩ := ih (Nat.le_refl _) (Nat.le_refl _) read
        have first : number * 64 + (low - 0x80) ≤ number * 64 + byte.toNat % 64 := by omega
        have last : number * 64 + byte.toNat % 64 + 1 ≤ number * 64 + (high - 0x80) + 1 := by omega
        have above_first := Nat.mul_le_mul_right (64 ^ (following + 1)) first
        have below_last := Nat.mul_le_mul_right (64 ^ (following + 1)) last
        refine ⟨code, same, ?_, ?_⟩
        · rw [Nat.pow_succ] at above_first ⊢
          have value : (number * 64 + byte.toNat % 64) * 64 * 64 ^ following =
              (number * 64 + byte.toNat % 64) * (64 ^ following * 64) := by
            rw [Nat.mul_assoc, Nat.mul_comm 64]
          simp only [Nat.sub_self, Nat.add_zero, value] at above
          exact Nat.le_trans above_first above
        · rw [Nat.pow_succ] at below_last ⊢
          have value : ((number * 64 + byte.toNat % 64) * 64 + (0xBF - 0x80) + 1) * 64 ^ following =
              (number * 64 + byte.toNat % 64 + 1) * (64 ^ following * 64) := by
            rw [Nat.mul_comm (64 ^ following) 64, ← Nat.mul_assoc]
            congr 1
            omega
          rw [value] at below
          exact Nat.lt_of_lt_of_le below below_last
      · cases read

theorem toNat_ofNat {code : Nat} (valid : code < 0xD800 ∨ 0xE000 ≤ code ∧ code < 0x110000) :
    (Char.ofNat code).toNat = code := by
  have valid_char : code.isValidChar := by
    rcases valid with low | high
    · exact .inl low
    · exact .inr ⟨by omega, high.2⟩
  rw [Char.ofNat, dif_pos valid_char]
  rfl

theorem Lead.large {byte : Nat} {lead : Lead} {bytes : Bytes} {character : Char}
    (led : Lead.ofByte? byte = some lead)
    (read : (readFollowing lead.following lead.low lead.high lead.bits bytes).1 = some character) :
    0x80 ≤ character.toNat := by
  have bounds : ∀ following low high bits, lead = ⟨bits, following + 1, low, high⟩ → 0x80 ≤ low →
      high ≤ 0xBF → ∃ code, character = Char.ofNat code ∧
        (bits * 64 + (low - 0x80)) * 64 ^ following ≤ code ∧
        code < (bits * 64 + (high - 0x80) + 1) * 64 ^ following := by
    intro following low high bits same least most
    subst same
    exact readFollowing_bounds least most read
  have number : ∃ code, character = Char.ofNat code ∧ 0x80 ≤ code ∧
      (code < 0xD800 ∨ 0xE000 ≤ code ∧ code < 0x110000) := by
    unfold Lead.ofByte? at led
    -- One case for each range of the first byte.
    repeat' split at led
    all_goals
      first
      | contradiction
      | obtain ⟨code, same, above, below⟩ :=
          bounds _ _ _ _ (Option.some.inj led).symm (by decide) (by decide)
        refine ⟨code, same, ?_⟩
        norm_num at above below
        omega
  obtain ⟨code, rfl, large, valid⟩ := number
  rw [toNat_ofNat valid]
  exact large

/-- Only a byte below 0x80 becomes a character below 0x80. -/
theorem ascii_of_decodeLossyChars {bytes : Bytes}
    (ascii : ∀ character ∈ decodeLossyChars bytes, character.toNat < 0x80) :
    ∀ byte ∈ bytes, byte < 0x80 := by
  fun_induction decodeLossyChars bytes with
  | case1 => exact nofun
  | case2 byte rest small ih =>
    rw [List.forall_mem_cons] at ascii ⊢
    exact ⟨small, ih ascii.2⟩
  | case3 byte rest large unled ih =>
    exact absurd (ascii replacement List.mem_cons_self) (by decide)
  | case4 byte rest large lead led next ih =>
    have first := ascii _ List.mem_cons_self
    cases read : next.1 with
    | none =>
      rw [read] at first
      exact absurd first (by decide)
    | some character =>
      rw [read] at first
      exact absurd (Lead.large led read) (by simpa using first)

end Managed.Text.Utf8
