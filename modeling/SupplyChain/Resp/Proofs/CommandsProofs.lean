import SupplyChain.Resp.Commands
import SupplyChain.Resp.Proofs.ServerRepliesProofs

/-!
# Proofs: commands are framed unambiguously

A command is an array of bulk strings, whose lengths say where each argument ends. Nothing in an argument
is looked at.
-/

namespace SupplyChain.AnyBytes

open Resp (Reply)
open Double (ofInt)

variable {args : List (List Char)} {commands commands' : List (List (List Char))} {buf rest : List UInt8}

/-- The reply that a command is written as. -/
def commandReply (args : List (List Char)) : Reply :=
  .array 0 (args.map fun a => .bulk 0 (Utf8.encode a))

theorem encode_commandReply (args : List (List Char)) : (commandReply args).encode = encodeCommand args :=
  (encodeCommand_eq args).symm

theorem ofValue_commandReply (args : List (List Char)) :
    ofValue (commandReply args).value = command args := by
  have hitems : ofValues (Reply.values (args.map fun a => .bulk 0 (Utf8.encode a))) =
      args.map .text := by
    induction args with
    | nil => rfl
    | cons a args ih =>
      rw [List.map_cons, Reply.values, ofValues, ih, Reply.value_bulk_encode]
      rfl
  rw [commandReply, Reply.value, ofValue, hitems, command]

theorem length_le_encodeAll_bulk (args : List (List Char)) :
    args.length ≤ (Reply.encodeAll (args.map fun a => .bulk 0 (Utf8.encode a))).length := by
  induction args with
  | nil => exact Nat.zero_le _
  | cons a args ih =>
    rw [List.map_cons, Reply.encodeAll, List.length_append, Reply.encode, length_frame, List.length_cons]
    omega

/-- A command that fits into a buffer is a reply that a server could send. -/
theorem wellFormed_commandReply (h : (encodeCommand args).length ≤ MAX_LENGTH) :
    (commandReply args).WellFormed := by
  rw [← encode_commandReply, commandReply, Reply.encode, length_frame] at h
  unfold MAX_LENGTH at h
  have hcount := length_le_encodeAll_bulk args
  refine .array (by rw [List.length_map]; omega) fun item hitem => ?_
  have hlength := length_encode_le hitem
  obtain ⟨a, -, rfl⟩ := List.mem_map.mp hitem
  rw [Reply.encode, length_frame, List.length_append] at hlength
  exact .bulk (by omega)

/-- A command is read back, whatever follows. -/
theorem tryParseReply_command {fuel : Nat} (hfits : (encodeCommand args ++ rest).length ≤ MAX_LENGTH)
    (hfuel : (encodeCommand args).length ≤ fuel) :
    tryParseReply fuel (encodeCommand args ++ rest) (ofInt 0) =
      some (.parsed (command args) (ofInt (encodeCommand args).length)) := by
  have hlength : (encodeCommand args).length ≤ MAX_LENGTH := by
    rw [List.length_append] at hfits
    omega
  have hparse : tryParseReply fuel (encodeCommand args ++ rest) (ofInt (0 : Nat)) = _ :=
    tryParseReply_reply (wellFormed_commandReply hlength) (by rwa [encode_commandReply]) hfits
      (by rw [encode_commandReply, List.drop_zero])
  rwa [encode_commandReply, ofValue_commandReply] at hparse

theorem encodeCommand_ne_nil (args : List (List Char)) : encodeCommand args ≠ [] := by
  rw [← encode_commandReply, commandReply, Reply.encode, Resp.frame]
  exact List.cons_ne_nil _ _

theorem encodeCommands_cons (args : List (List Char)) (commands : List (List (List Char))) :
    encodeCommands (args :: commands) = encodeCommand args ++ encodeCommands commands :=
  List.flatMap_cons ..

/-- Commands are read back one by one, and no byte is left. -/
theorem readAll_encodeCommands {fuel : Nat} (hfits : (encodeCommands commands).length ≤ MAX_LENGTH)
    (hfuel : (encodeCommands commands).length + 1 < fuel) :
    readAll fuel (encodeCommands commands) = some (commands.map command, []) := by
  induction commands generalizing fuel with
  | nil =>
    obtain ⟨fuel, rfl⟩ := Nat.exists_eq_succ_of_ne_zero (show fuel ≠ 0 by omega)
    obtain ⟨fuel, rfl⟩ := Nat.exists_eq_succ_of_ne_zero
      (show fuel ≠ 0 by rintro rfl; simp [encodeCommands] at hfuel)
    have hmore : tryParseReply (fuel + 1) [] (ofInt (0 : Nat)) = some .more :=
      more_of_header_none (Nat.zero_le _) fuel rfl
    rw [ofInt_zero] at hmore
    show readAll (fuel + 1 + 1) [] = _
    rw [readAll, hmore]
    rfl
  | cons args commands ih =>
    obtain ⟨fuel, rfl⟩ := Nat.exists_eq_succ_of_ne_zero (show fuel ≠ 0 by omega)
    have hpos := List.length_pos_iff.mpr (encodeCommand_ne_nil args)
    rw [encodeCommands_cons] at hfits hfuel ⊢
    have hrest : sliceFrom (encodeCommand args ++ encodeCommands commands)
        (ofInt (encodeCommand args).length) = encodeCommands commands := by
      rw [sliceFrom_nat (by rw [List.length_append]; omega), List.drop_left]
    have hlength := hfits
    rw [List.length_append] at hlength hfuel
    rw [readAll, tryParseReply_command hfits (by omega)]
    dsimp only
    rw [hrest, ih (by omega) (by omega)]
    rfl

theorem command_injective : Function.Injective command := by
  intro args args' h
  have htexts : args.map JsValue.text = args'.map JsValue.text := JsValue.array.inj h
  exact List.map_injective_iff.mpr (fun _ _ htext => JsValue.text.inj htext) htexts

/-- A command is read as exactly its arguments and its own length, whatever follows it; commands one after
the other are read as exactly these commands; and no other commands have the same bytes. -/
theorem commands_framed (buf : Buffer) :
    (∀ args rest, buf.bytes = encodeCommand args ++ rest → ∃ enough, ∀ fuel, enough ≤ fuel →
      tryParseReply fuel buf.bytes (ofInt 0) =
        some (.parsed (command args) (ofInt (encodeCommand args).length))) ∧
    (∀ commands, buf.bytes = encodeCommands commands → ∃ enough, ∀ fuel, enough ≤ fuel →
      readAll fuel buf.bytes = some (commands.map command, [])) ∧
    ∀ commands commands', buf.bytes = encodeCommands commands → buf.bytes = encodeCommands commands' →
      commands = commands' := by
  have hfits := buf.fits
  have hread : ∀ commands, buf.bytes = encodeCommands commands →
      readAll (buf.bytes.length + 2) buf.bytes = some (commands.map command, []) := by
    intro commands hbytes
    rw [hbytes] at hfits ⊢
    exact readAll_encodeCommands hfits (Nat.lt_succ_self _)
  refine ⟨fun args rest hbytes => ?_, fun commands hbytes => ?_, fun commands commands' h h' => ?_⟩
  · rw [hbytes] at hfits ⊢
    exact ⟨_, fun fuel hfuel => tryParseReply_command hfits hfuel⟩
  · rw [hbytes] at hfits ⊢
    refine ⟨(encodeCommands commands).length + 2, fun fuel hfuel => ?_⟩
    exact readAll_encodeCommands hfits hfuel
  · have hsame := (hread commands h).symm.trans (hread commands' h')
    exact List.map_injective_iff.mpr command_injective (Prod.mk.inj (Option.some.inj hsame)).1

/-- A `SET` of an empty key to the text of another command. -/
def nestedCommand : List (List Char) := ["SET".toList, [], "€\r\n*1\r\n$4\r\nQUIT\r\n".toList]

theorem nestedCommand_framed :
    (∃ enough, ∀ fuel, enough ≤ fuel →
      tryParseReply fuel (encodeCommand nestedCommand ++ [58, 13]) (ofInt 0) =
        some (.parsed (command nestedCommand) (ofInt (encodeCommand nestedCommand).length))) ∧
    ∃ enough, ∀ fuel, enough ≤ fuel →
      readAll fuel (encodeCommands [nestedCommand, [], nestedCommand]) =
        some ([command nestedCommand, command [], command nestedCommand], []) :=
  ⟨(commands_framed ⟨_, by decide +kernel⟩).1 nestedCommand [58, 13] rfl,
    (commands_framed ⟨_, by decide +kernel⟩).2.1 [nestedCommand, [], nestedCommand] rfl⟩

end SupplyChain.AnyBytes
