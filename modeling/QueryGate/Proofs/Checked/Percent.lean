import QueryGate.Proofs.Checked.Basic
import QueryGate.Proofs.Text.Percent

/-!
# Decoding by index

The decoder goes through a text by index. At a `%` it looks at the two characters behind it, which
may be beyond the end, and each digit is looked up in a table with an entry for every character of
ASCII.
-/

namespace QueryGate

open Text.Percent

namespace Checked

/-- For each character of ASCII its value as a hexadecimal digit. -/
def digitTable : List (Option Nat) :=
  (List.range 128).map fun code => Text.hexValue? (Char.ofNat code)

/-- The value of a character as a hexadecimal digit, if it is one. -/
def digit {ε : Type} (char : Char) : Checked ε (Option Nat) :=
  if digitTable.length ≤ char.toNat then return none else item digitTable char.toNat

/-- The byte of the group whose `%` stands at an index. -/
def percentGroup (chars : List Char) (index : Nat) : Checked DecodeError UInt8 :=
  if chars.length ≤ index + 2 then throw (.truncated index)
  else do
    let high ← digit (← item chars (index + 1))
    let low ← digit (← item chars (index + 2))
    match high, low with
    | some high, some low => return UInt8.ofNat (16 * high + low)
    | _, _ =>
        let token ← slice chars index (index + 3)
        throw (.invalidGroup index (← item token 1) (← item token 2))

/-- Decodes a text from an index on. `text` is what has been decoded before it, `run` holds the
bytes of the groups just before it, and `start` is where the first of these stands. -/
def decodeFrom (chars text : List Char) (start : Nat) (run : ByteArray) (index : Nat) :
    Checked DecodeError (List Char) :=
  if index < chars.length then do
    let char ← item chars index
    if char ≠ '%' then
      let before ← of (runText start run)
      decodeFrom chars (text ++ before ++ [char]) index .empty (index + 1)
    else
      let byte ← percentGroup chars index
      decodeFrom chars text (if run.isEmpty then index else start) (run.push byte) (index + 3)
  else return text ++ (← of (runText start run))
termination_by chars.length - index

/-- Decodes a percent-coded text. One without a `%` is left alone. -/
def decode (raw : String) : Checked DecodeError String :=
  if raw.toList.contains '%' then
    String.ofList <$> decodeFrom raw.toList [] 0 .empty 0
  else return raw

/-! ### Decoding does not break off -/

theorem digit_eq_of {ε : Type} (char : Char) :
    (digit char : Checked ε (Option Nat)) = of (.ok (Text.hexValue? char)) := by
  have length : digitTable.length = 128 := by simp [digitTable]
  rw [digit, length]
  split
  · rename_i wide
    rw [hexValue?_eq_none_of_le wide, pure_eq_of]
  · apply item_eq_of
    rw [digitTable, List.getElem?_map, List.getElem?_range (by omega), Option.map_some,
      Char.ofNat_toNat]

theorem percentGroup_eq_of (before rest : List Char) (high low : Char) :
    percentGroup (before ++ '%' :: high :: low :: rest) before.length =
      of (match byte? high low with
        | some byte => .ok byte
        | none => .error (.invalidGroup before.length high low)) := by
  have first : (before ++ '%' :: high :: low :: rest)[before.length + 1]? = some high := by simp
  have second : (before ++ '%' :: high :: low :: rest)[before.length + 2]? = some low := by simp
  have token : (slice (before ++ '%' :: high :: low :: rest) before.length (before.length + 3) :
      Checked DecodeError (List Char)) = of (.ok ['%', high, low]) := by
    simpa using slice_append before ['%', high, low] rest
  rw [percentGroup, if_neg (by simp), item_eq_of first, ok_bind, digit_eq_of, ok_bind,
    item_eq_of second, ok_bind, digit_eq_of, ok_bind, byte?]
  cases Text.hexValue? high <;> cases Text.hexValue? low <;> first | rfl | (rw [token]; rfl)

theorem percentGroup_eq_of_short (before : List Char) {rest : List Char}
    (short : ∀ high low others, rest = high :: low :: others → False) :
    percentGroup (before ++ '%' :: rest) before.length =
      of (.error (.truncated before.length)) := by
  rw [percentGroup, if_pos, throw_eq_of]
  match rest with
  | [] | [_] => simp
  | high :: low :: others => exact (short high low others rfl).elim

/-- At a `%` the group that it begins is read first. -/
theorem decodeFrom_percent (before rest text : List Char) (start : Nat) (run : ByteArray) :
    decodeFrom (before ++ '%' :: rest) text start run before.length = (do
      let byte ← percentGroup (before ++ '%' :: rest) before.length
      decodeFrom (before ++ '%' :: rest) text (if run.isEmpty then before.length else start)
        (run.push byte) (before.length + 3)) := by
  rw [decodeFrom, if_pos (by simp), item_append, ok_bind, if_neg (by simp)]

/-- From any index on, a text is decoded like the characters that are left of it. -/
theorem decodeFrom_eq_of (before rest text : List Char) (start : Nat) (run : ByteArray) :
    decodeFrom (before ++ rest) text start run before.length =
      of ((decodeRest start run before.length rest).map (text ++ ·)) := by
  generalize position : before.length = index
  fun_induction decodeRest start run index rest generalizing before text with
  | case1 start run index =>
      rw [decodeFrom, if_neg (by simp [position])]
      cases runText start run <;> rfl
  | case2 start run index high low rest invalid =>
      subst position
      rw [decodeFrom_percent, percentGroup_eq_of, invalid]
      rfl
  | case3 start run index high low rest byte valid first hypothesis =>
      subst position
      have later := hypothesis (before ++ ['%', high, low]) text (by simp)
      rw [List.append_assoc] at later
      rw [decodeFrom_percent, percentGroup_eq_of, valid]
      exact later
  | case4 start run index rest short =>
      subst position
      rw [decodeFrom_percent,
        percentGroup_eq_of_short before fun high low others => short high low others rfl]
      rfl
  | case5 start run index char rest notGroup notPercent hypothesis =>
      subst position
      rw [decodeFrom, if_pos (by simp), item_append, ok_bind, if_pos notPercent]
      cases runText start run with
      | error fault => rfl
      | ok front =>
          have later := hypothesis (before ++ [char]) (text ++ front ++ [char]) (by simp)
          rw [List.append_assoc] at later
          rw [ok_bind]
          refine later.trans ?_
          cases decodeRest before.length .empty (before.length + 1) rest with
          | error fault => rfl
          | ok behind => simp [Except.map, bind, Except.bind, pure, Except.pure]

/-- A text without a `%` stands for itself. -/
theorem decodeRest_of_not_mem {text : List Char} (absent : '%' ∉ text) (start position : Nat) :
    decodeRest start .empty position text = .ok text := by
  induction text generalizing start position with
  | nil => rfl
  | cons char rest hypothesis =>
      rw [List.mem_cons, not_or] at absent
      rw [decodeRest.eq_3 _ _ _ _ _ (fun _ _ _ same _ => absent.1 same.symm),
        if_neg (Ne.symm absent.1), hypothesis absent.2]
      rfl

/-- Decoding does not break off. -/
theorem decode_eq_of (raw : String) : decode raw = of (Text.Percent.decode raw) := by
  rw [decode, Text.Percent.decode]
  split
  · have whole := map_eq_of (decodeFrom_eq_of [] raw.toList [] 0 .empty) String.ofList
    refine whole.trans ?_
    cases decodeRest 0 .empty 0 raw.toList <;> rfl
  · rename_i absent
    rw [decodeRest_of_not_mem (by simpa using absent)]
    simp [pure_eq_of, Except.map]

end Checked

end QueryGate
