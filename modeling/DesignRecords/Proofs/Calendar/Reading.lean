import DesignRecords.Proofs.Calendar.Writing

namespace DesignRecords

namespace Text

variable {s t rest : Text} {n k m : Nat}

theorem digitsValue_lt (h : ∀ c ∈ s, c.isDigit = true) : digitsValue s < Nat.pow 10 s.length := by
  have hfold : ∀ (s : Text) (a : Nat), (∀ c ∈ s, c.isDigit = true) →
      s.foldl (fun n c => 10 * n + (c.toNat - '0'.toNat)) a < (a + 1) * 10 ^ s.length := by
    intro s
    induction s with
    | nil => simp
    | cons c s ih =>
      intro a h
      obtain ⟨hc, hs⟩ := List.forall_mem_cons.mp h
      have hd : c.toNat - '0'.toNat ≤ 9 := by
        have hc : 48 ≤ c.toNat ∧ c.toNat ≤ 57 := by
          simpa [Char.isDigit, UInt32.le_iff_toNat_le] using hc
        have hz : '0'.toNat = 48 := rfl
        omega
      calc (c :: s).foldl (fun n c => 10 * n + (c.toNat - '0'.toNat)) a
          = s.foldl (fun n c => 10 * n + (c.toNat - '0'.toNat))
              (10 * a + (c.toNat - '0'.toNat)) := rfl
        _ < (10 * a + (c.toNat - '0'.toNat) + 1) * 10 ^ s.length := ih _ hs
        _ ≤ (10 * a + 10) * 10 ^ s.length := Nat.mul_le_mul_right _ (by omega)
        _ = (a + 1) * 10 ^ (c :: s).length := by
          have hten : 10 * a + 10 = (a + 1) * 10 := by omega
          rw [hten, List.length_cons, Nat.pow_succ', Nat.mul_assoc]
  simpa [digitsValue] using hfold s 0 h

/-- A number that is read has no more digits than it may have, and they are all passed. -/
theorem exists_digits_of_number? (h : number? k m t = some (n, rest)) :
    ∃ d, d ≤ m ∧ d + rest.length = t.length ∧ n < Nat.pow 10 d := by
  unfold number? at h
  dsimp only at h
  split at h
  · cases h
  · cases h
    refine ⟨((t.take m).takeWhile Char.isDigit).length, ?_, ?_, ?_⟩
    · exact (List.takeWhile_prefix _).length_le.trans (List.length_take_le m t)
    · have hle := ((List.takeWhile_prefix Char.isDigit).trans (List.take_prefix m t)).length_le
      rw [List.length_drop]
      omega
    · exact digitsValue_lt fun c hc => List.mem_takeWhile_imp hc

end Text

namespace Date

variable {d e : Date} {year : Int} {month day : Nat} {t : Text}

theorem eq_of_ofParts? (h : ofParts? year month day = some d) : d = ⟨year, month, day⟩ := by
  unfold ofParts? at h
  split at h
  · exact (Option.some.inj h).symm
  · cases h

theorem valid_of_ofParts? (h : ofParts? year month day = some d) : d.Valid := by
  have hd := eq_of_ofParts? h
  rw [hd] at h ⊢
  exact h

theorem valid_iff : d.Valid ↔ yearInRange d.year = true ∧ 1 ≤ d.month ∧ d.month ≤ 12 ∧
    1 ≤ d.day ∧ d.day ≤ daysIn d.year d.month := by
  unfold Valid ofParts?
  split
  next h => simpa [and_assoc] using h
  next h => simpa [and_assoc] using h

theorem one_le_daysIn (year : Int) (month : Nat) : 1 ≤ daysIn year month := by
  unfold daysIn
  split
  · split <;> omega
  · split <;> omega

theorem Valid.next? (h : d.Valid) (he : d.next? = some e) : e.Valid := by
  obtain ⟨hy, hm, hm', hd, hd'⟩ := valid_iff.mp h
  unfold Date.next? at he
  split at he
  next hlt =>
    cases he
    exact valid_iff.mpr ⟨hy, hm, hm', by simp, hlt⟩
  next =>
    split at he
    next hlt =>
      cases he
      exact valid_iff.mpr ⟨hy, by simp, hlt, le_refl 1, one_le_daysIn _ _⟩
    next => exact valid_of_ofParts? he

theorem Valid.previous? (h : d.Valid) (he : d.previous? = some e) : e.Valid := by
  obtain ⟨hy, hm, hm', hd, hd'⟩ := valid_iff.mp h
  unfold Date.previous? at he
  split at he
  next hlt =>
    cases he
    exact valid_iff.mpr ⟨hy, hm, hm', Nat.le_sub_one_of_lt hlt, (Nat.sub_le d.day 1).trans hd'⟩
  next =>
    split at he
    next hlt =>
      cases he
      exact valid_iff.mpr ⟨hy, Nat.le_sub_one_of_lt hlt, (Nat.sub_le d.month 1).trans hm',
        one_le_daysIn _ _, le_refl _⟩
    next => exact valid_of_ofParts? he

theorem valid_of_read? (h : read? t = some d) : d.Valid := by
  unfold read? at h
  obtain ⟨⟨year, t₁⟩, -, h⟩ := Option.bind_eq_some_iff.mp h
  obtain ⟨t₂, -, h⟩ := Option.bind_eq_some_iff.mp h
  obtain ⟨⟨month, t₃⟩, -, h⟩ := Option.bind_eq_some_iff.mp h
  obtain ⟨t₄, -, h⟩ := Option.bind_eq_some_iff.mp h
  obtain ⟨⟨n, t₅⟩, -, h⟩ := Option.bind_eq_some_iff.mp h
  dsimp only at h
  split at h
  · exact valid_of_ofParts? h
  · cases h

end Date

namespace Instant

variable {i : Instant} {date : Date} {second nanosecond n : Nat} {offset : Int} {t rest : Text}
  {skip : Text → Option Text}

/-- Whether the parts of an instant are those that a clock shows, in any year. -/
structure Timely (i : Instant) : Prop where
  date : i.date.Valid
  second : i.second < 86400
  nanosecond : i.nanosecond < 1000000000 ∨ (i.nanosecond < 2000000000 ∧ i.second % 60 = 59)

theorem Timely.shown (h : i.Timely) (hf : 0 ≤ i.date.year) (hl : i.date.year ≤ 9999) : i.Shown :=
  { h with first := hf, last := hl }

/-- What a clock shows is shown in UTC too, where it is whole minutes ahead, and less than a
day. -/
theorem Timely.ofLocal? (h : Timely ⟨date, second, nanosecond⟩) (hm : 60 ∣ offset)
    (ho : offset.natAbs < 86400) (hi : ofLocal? date second nanosecond offset = some i) :
    i.Timely := by
  have hs : second < 86400 := h.second
  have hn : nanosecond < 1000000000 ∨ (nanosecond < 2000000000 ∧ second % 60 = 59) := h.nanosecond
  obtain ⟨minutes, rfl⟩ := hm
  unfold Instant.ofLocal? at hi
  dsimp only at hi
  split at hi
  next hneg =>
    obtain ⟨d, hd, rfl⟩ := Option.map_eq_some_iff.mp hi
    exact ⟨h.date.previous? hd, by dsimp only; omega, by dsimp only; omega⟩
  next hneg =>
    split at hi
    next hbig =>
      obtain ⟨d, hd, rfl⟩ := Option.map_eq_some_iff.mp hi
      exact ⟨h.date.next? hd, by dsimp only; omega, by dsimp only; omega⟩
    next hbig =>
      cases hi
      exact ⟨h.date, by dsimp only; omega, by dsimp only; omega⟩

theorem timely_of_ofParts? {hour minute : Nat} (hd : date.Valid) (hn : nanosecond < 1000000000)
    (hm : 60 ∣ offset) (hi : ofParts? date hour minute second nanosecond offset = some i) :
    i.Timely := by
  unfold ofParts? at hi
  split at hi
  · cases hi
  next hg =>
    simp only [Bool.or_eq_true, decide_eq_true_eq, not_or, not_le] at hg
    obtain ⟨⟨⟨hhour, hminute⟩, hsecond⟩, hoffset⟩ := hg
    refine Timely.ofLocal? ⟨hd, ?_, ?_⟩ hm hoffset hi
    · dsimp only
      omega
    · dsimp only
      split <;> omega

theorem readFraction?_lt (h : readFraction? t = some (n, rest)) : n < 1000000000 := by
  unfold readFraction? at h
  split at h
  next digits =>
    obtain ⟨⟨m, after⟩, hm, hn⟩ := Option.bind_eq_some_iff.mp h
    cases hn
    obtain ⟨d, hd, hlength, hlt⟩ := Text.exists_digits_of_number? hm
    have hpassed : digits.length - after.length = d := by omega
    have hnine : 10 ^ d * 10 ^ (9 - d) = 1000000000 := by
      rw [← Nat.pow_add, Nat.add_sub_of_le hd]
    calc m * Nat.pow 10 (9 - (digits.length - after.length))
        = m * 10 ^ (9 - d) := by rw [hpassed]; rfl
      _ < 10 ^ d * 10 ^ (9 - d) := Nat.mul_lt_mul_of_pos_right hlt (Nat.pow_pos (by decide))
      _ = 1000000000 := hnine
  · cases h
    exact Nat.zero_lt_succ _

theorem dvd_of_readHoursMinutes? (h : readHoursMinutes? skip t = some (n, rest)) : 60 ∣ n := by
  unfold readHoursMinutes? at h
  obtain ⟨⟨hours, t₁⟩, -, h⟩ := Option.bind_eq_some_iff.mp h
  obtain ⟨t₂, -, h⟩ := Option.bind_eq_some_iff.mp h
  obtain ⟨⟨minutes, t₃⟩, -, h⟩ := Option.bind_eq_some_iff.mp h
  dsimp only at h
  split at h
  · cases h
    omega
  · cases h

theorem dvd_of_readOffset? (h : readOffset? skip t = some (offset, rest)) : 60 ∣ offset := by
  unfold readOffset? at h
  split at h
  · cases h
  · split at h
    · cases h
      exact Int.dvd_zero 60
    · split at h
      · obtain ⟨⟨n, t₁⟩, hn, he⟩ := Option.map_eq_some_iff.mp h
        cases he
        have hd := dvd_of_readHoursMinutes? hn
        omega
      · split at h
        · obtain ⟨⟨n, t₁⟩, hn, he⟩ := Option.map_eq_some_iff.mp h
          cases he
          have hd := dvd_of_readHoursMinutes? hn
          omega
        · cases h

/-- Every instant that is read is one that a clock shows. -/
theorem timely_of_read? (h : read? t = some i) : i.Timely := by
  unfold read? at h
  obtain ⟨⟨year, t₁⟩, -, h⟩ := Option.bind_eq_some_iff.mp h
  obtain ⟨t₂, -, h⟩ := Option.bind_eq_some_iff.mp h
  obtain ⟨⟨month, t₃⟩, -, h⟩ := Option.bind_eq_some_iff.mp h
  obtain ⟨t₄, -, h⟩ := Option.bind_eq_some_iff.mp h
  obtain ⟨⟨day, t₅⟩, -, h⟩ := Option.bind_eq_some_iff.mp h
  obtain ⟨t₆, -, h⟩ := Option.bind_eq_some_iff.mp h
  obtain ⟨⟨hour, t₇⟩, -, h⟩ := Option.bind_eq_some_iff.mp h
  obtain ⟨t₈, -, h⟩ := Option.bind_eq_some_iff.mp h
  obtain ⟨⟨minute, t₉⟩, -, h⟩ := Option.bind_eq_some_iff.mp h
  obtain ⟨t₁₀, -, h⟩ := Option.bind_eq_some_iff.mp h
  obtain ⟨⟨second, t₁₁⟩, -, h⟩ := Option.bind_eq_some_iff.mp h
  obtain ⟨⟨nanosecond, t₁₂⟩, hn, h⟩ := Option.bind_eq_some_iff.mp h
  obtain ⟨⟨offset, t₁₃⟩, ho, h⟩ := Option.bind_eq_some_iff.mp h
  dsimp only at h
  split at h
  · obtain ⟨date, hd, h⟩ := Option.bind_eq_some_iff.mp h
    exact timely_of_ofParts? (Date.valid_of_ofParts? hd) (readFraction?_lt hn)
      (dvd_of_readOffset? ho) h
  · cases h

end Instant

end DesignRecords
