import FreifunkManager.Model.SshUpdate
import FreifunkManager.Shell.Quoting

/-! # The command texts as a shell reads them

The user's texts are written between single quotes without any escape. Each of the templates is read
as its fixed commands, with the text as a part of its one argument, exactly if the text can stand
between single quotes; a quote in it ends the argument, and what follows is the user's program.
-/

namespace FreifunkManager

open Shell

/-- A section name of the wireless configuration. -/
structure RadioName where
  name : String
  named : ∀ c ∈ name.toList, isName c

def word (text : String) : Token := Token.text text.toList

/-- The commands that a hostname is meant for. -/
def hostnameCommands (hostname : String) : List (List Token) :=
  [[word "uci", word "set", word ("system.@system[0].hostname=" ++ hostname)],
   [word "uci", word "commit"],
   [word "echo", .word [.expansion "(uci get system.@system[0].hostname)".toList], .operator '>',
    word "/proc/sys/kernel/hostname"]]

def contactCommands (owner : String) : List (List Token) :=
  [[word "uci", word "set", word ("gluon-node-info.@owner[0].contact=" ++ owner)],
   [word "uci", word "commit", word "gluon-node-info"]]

def ssidCommands (radio : RadioName) (hostname : String) : List (List Token) :=
  [[word "uci", word "set", word ("wireless.priv_" ++ radio.name ++ ".ssid=offline-" ++ hostname)],
   [word "uci", word "commit", word "wireless"]]

/-- The tokens before the argument of the first `uci set`, latest first. -/
def uciSet : List Token := [word "set", word "uci", .operator '\n']

theorem uciSet_bare (pieces : List Piece) (member : .word pieces ∈ uciSet) : Bare pieces := by
  simp only [uciSet, word, Token.text, List.mem_cons, Token.word.injEq, reduceCtorEq, List.not_mem_nil,
    or_false] at member
  rcases member with rfl | rfl <;> decide

def hostnameSlot : Slot where
  before := "\n\t\t\tuci set system.@system[0].hostname='"
  rest := "\n\t\t\tuci commit; echo $(uci get system.@system[0].hostname) > /proc/sys/kernel/hostname;"
  tokens := uciSet
  key := "system.@system[0].hostname="
  opens := scan_literal rfl rfl (by decide +kernel)

def contactSlot : Slot where
  before := "\n\t\t\tuci set gluon-node-info.@owner[0].contact='"
  rest := "\n\t\t\tuci commit gluon-node-info;"
  tokens := uciSet
  key := "gluon-node-info.@owner[0].contact="
  opens := scan_literal rfl rfl (by decide +kernel)

def ssidSlot (radio : RadioName) : Slot where
  before := "\n\t\t\t\tuci set wireless.priv_" ++ radio.name ++ ".ssid='offline-"
  rest := "\n\t\t\t\tuci commit wireless;"
  tokens := uciSet
  key := "wireless.priv_" ++ radio.name ++ ".ssid=offline-"
  opens := scan_around_name radio.named (scan_literal rfl rfl (by decide +kernel)) rfl rfl fun _ => rfl

theorem hostnameSlot_sealed : hostnameSlot.Sealed where
  bare := uciSet_bare
  assigns := mem_literal rfl (by decide)
  harmless := harmless_literal rfl (by decide +kernel)
  nulBefore := not_mem_literal rfl (by decide)
  nulRest := not_mem_literal rfl (by decide)

theorem contactSlot_sealed : contactSlot.Sealed where
  bare := uciSet_bare
  assigns := mem_literal rfl (by decide)
  harmless := harmless_literal rfl (by decide +kernel)
  nulBefore := not_mem_literal rfl (by decide)
  nulRest := not_mem_literal rfl (by decide)

/-- A text around a name has no character that neither its parts nor names have. -/
theorem RadioName.not_mem_around (radio : RadioName) {c : Char} (other : isName c = false) {first last : String}
    (before : c ∉ first.toList) (after : c ∉ last.toList) : c ∉ (first ++ radio.name ++ last).toList := by
  rw [String.toList_append, String.toList_append, List.mem_append, List.mem_append]
  rintro ((first | name) | last)
  · exact before first
  · exact Bool.false_ne_true (other.symm.trans (radio.named c name))
  · exact after last

theorem ssidSlot_sealed (radio : RadioName) : (ssidSlot radio).Sealed where
  bare := uciSet_bare
  assigns := by
    unfold ssidSlot
    rw [String.toList_append]
    exact List.mem_append_right _ (mem_literal rfl (by decide))
  harmless := harmless_literal rfl (by decide +kernel)
  nulBefore := radio.not_mem_around rfl (not_mem_literal rfl (by decide)) (not_mem_literal rfl (by decide))
  nulRest := not_mem_literal rfl (by decide)

/-- A text around a value, in the form of its slot. -/
theorem text_eq (slot : Slot) {before last : String} (value : String) (first : before = slot.before)
    (second : last = "';" ++ slot.rest) : before ++ value ++ last = slot.text value := by
  rw [first, second, Slot.text]

theorem hostnameCommand_eq (hostname : String) : hostnameCommand hostname = hostnameSlot.text hostname :=
  text_eq hostnameSlot hostname rfl (literal_append rfl rfl rfl)

theorem contactCommand_eq (owner : String) : contactCommand owner = contactSlot.text owner :=
  text_eq contactSlot owner rfl (literal_append rfl rfl rfl)

theorem ssidCommand_eq (radio : RadioName) (hostname : String) :
    ssidCommand radio.name hostname = (ssidSlot radio).text hostname :=
  text_eq (ssidSlot radio) hostname rfl (literal_append rfl rfl rfl)

theorem commands_uciSet (pieces : List Piece) :
    commands (uciSet.reverse ++ [.word pieces]) = [[word "uci", word "set", .word pieces]] := rfl

private theorem text_append (first second : String) :
    Token.text (first.toList ++ second.toList) = word (first ++ second) := by
  rw [word, String.toList_append]

theorem hostname_ends : tokenize hostnameSlot.rest.toList = some (.operator '\n' :: word "uci" :: word "commit" ::
    .operator ';' :: word "echo" :: .word [.expansion "(uci get system.@system[0].hostname)".toList] ::
    .operator '>' :: word "/proc/sys/kernel/hostname" :: [.operator ';']) := tokenize_literal rfl (by decide +kernel)

theorem contact_ends : tokenize contactSlot.rest.toList =
    some [.operator '\n', word "uci", word "commit", word "gluon-node-info", .operator ';'] :=
  tokenize_literal rfl (by decide +kernel)

theorem ssid_ends (radio : RadioName) : tokenize (ssidSlot radio).rest.toList =
    some [.operator '\n', word "uci", word "commit", word "wireless", .operator ';'] :=
  tokenize_literal rfl (by decide +kernel)

theorem hostname_read_iff (hostname : String) :
    read (hostnameCommand hostname) = some (hostnameCommands hostname) ↔ Quotable hostname := by
  rw [hostnameCommand_eq, ← hostnameSlot_sealed.read_iff hostname_ends, text_append]
  rfl

theorem contact_read_iff (owner : String) :
    read (contactCommand owner) = some (contactCommands owner) ↔ Quotable owner := by
  rw [contactCommand_eq, ← contactSlot_sealed.read_iff contact_ends, text_append]
  rfl

theorem ssid_read_iff (radio : RadioName) (hostname : String) :
    read (ssidCommand radio.name hostname) = some (ssidCommands radio hostname) ↔ Quotable hostname := by
  rw [ssidCommand_eq, ← (ssidSlot_sealed radio).read_iff (ssid_ends radio), text_append]
  rfl

/-- A shell reads every template as its own commands, with the text inside its one argument, if and
only if the text can stand between single quotes. -/
theorem commands_read_iff (hostname owner : String) (radio : RadioName) :
    (read (hostnameCommand hostname) = some (hostnameCommands hostname) ↔ Quotable hostname) ∧
    (read (contactCommand owner) = some (contactCommands owner) ↔ Quotable owner) ∧
    (read (ssidCommand radio.name hostname) = some (ssidCommands radio hostname) ↔ Quotable hostname) :=
  ⟨hostname_read_iff hostname, contact_read_iff owner, ssid_read_iff radio hostname⟩

/-- A hostname that makes the node restart. -/
theorem hostname_runs_commands :
    (∃ list, read (hostnameCommand "a'; reboot; '") = some list ∧ [word "reboot"] ∈ list) ∧
      read (hostnameCommand "a'; reboot; '") ≠ some (hostnameCommands "a'; reboot; '") := by
  have reads : read (hostnameCommand "a'; reboot; '") = some
      [[word "uci", word "set", word "system.@system[0].hostname=a"], [word "reboot"], [word ""],
       [word "uci", word "commit"],
       [word "echo", .word [.expansion "(uci get system.@system[0].hostname)".toList], .operator '>',
        word "/proc/sys/kernel/hostname"]] :=
    read_literal (append_literal (append_literal rfl rfl) rfl) (by decide +kernel)
  exact ⟨⟨_, reads, by decide⟩, fun expected => absurd ((hostname_read_iff _).mp expected) (by decide)⟩

end FreifunkManager
