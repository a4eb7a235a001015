import Mathlib.Tactic.SplitIfs
import Wiring.Json.Printer
import Wiring.Json.Reader

/-!
# Reading JSON text that was written

What is written as JSON is read back as it was.  A string literal ends where it was closed and
gives the text again, whatever characters the text has.  An object laid out with a line for each
member is read member by member, and comes back with its members in the order of their keys, which
is the order they have if they were kept in that order.

## Main definitions

* `Json.pieceOf` — the part of a string that a character is written as.
* `Json.ReadsBack` — a value that is read back from its text, wherever it stands.
* `Json.Increasing` — the keys of the members increase.

## Main results

* `Json.readString_escaped` — string literals are read back.
* `Json.readMembers_pretty` — the members of an object are read back.
* `Json.fromText_pretty` — an object with increasing keys is read back from its text.
-/

namespace Wiring.Json

/-! ### Characters -/

/-- The part of a string that a character is written as: the number of its unit if it is a
control character without a letter of its own. -/
def pieceOf (c : Char) : Piece :=
  if c.toNat < 32 ∧ c ∉ ['\n', '\r', '\t', '\x08', '\x0c'] then .unit c.toNat else .char c

theorem scanString_plain {c : Char} (hcontrol : ¬ c.toNat < 32) (hquote : c ≠ '"')
    (hbackslash : c ≠ '\\') (rest : List Char) :
    scanString (c :: rest) = (.char c :: (scanString rest).1, (scanString rest).2) := by
  rw [scanString]
  · rw [if_neg hcontrol]
  all_goals simp_all

theorem scanString_escaped {c plain : Char} (h : unescape? c = some plain) (rest : List Char) :
    scanString ('\\' :: c :: rest) = (.char plain :: (scanString rest).1, (scanString rest).2) := by
  have hunit : c ≠ 'u' := by
    rintro rfl
    cases h
  rw [scanString]
  · rw [h]
  all_goals simp_all

theorem scanString_unit {a b c d : Char} {n : Nat} (h : hexUnit? a b c d = some n)
    (rest : List Char) :
    scanString ('\\' :: 'u' :: a :: b :: c :: d :: rest) =
      (.unit n :: (scanString rest).1, (scanString rest).2) := by
  rw [scanString, h]

/-- A control character is written as the four digits of its number. -/
theorem controlEscape_eq : ∀ n : Fin 32,
    controlEscape (Char.ofNat n.val) =
      ['\\', 'u', '0', '0', Nat.digitChar (n.val / 16), Nat.digitChar (n.val % 16)] ∧
    hexUnit? '0' '0' (Nat.digitChar (n.val / 16)) (Nat.digitChar (n.val % 16)) = some n.val := by
  decide

/-- A backslash and a letter are read back as the character they are written for. -/
theorem scanString_short {c letter : Char} (hletter : unescape? letter = some c)
    (hplain : c.toNat < 32 → c ∈ ['\n', '\r', '\t', '\x08', '\x0c']) (rest : List Char) :
    scanString (['\\', letter] ++ rest) =
      (pieceOf c :: (scanString rest).1, (scanString rest).2) := by
  rw [pieceOf, if_neg fun h => h.2 (hplain h.1)]
  exact scanString_escaped hletter rest

/-- Every character is read back as the part it is written as. -/
theorem scanString_escapeChar (c : Char) (rest : List Char) :
    scanString (escapeChar c ++ rest) =
      (pieceOf c :: (scanString rest).1, (scanString rest).2) := by
  unfold escapeChar
  split_ifs with hquote hbackslash hlf hcr htab hback hfeed hcontrol
  · exact scanString_short (by rw [hquote]; rfl) (by simp [hquote]) rest
  · exact scanString_short (by rw [hbackslash]; rfl) (by simp [hbackslash]) rest
  · exact scanString_short (by rw [hlf]; rfl) (by simp [hlf]) rest
  · exact scanString_short (by rw [hcr]; rfl) (by simp [hcr]) rest
  · exact scanString_short (by rw [htab]; rfl) (by simp [htab]) rest
  · exact scanString_short (by rw [hback]; rfl) (by simp [hback]) rest
  · exact scanString_short (by rw [hfeed]; rfl) (by simp [hfeed]) rest
  · obtain ⟨hescape, hunit⟩ := controlEscape_eq ⟨c.toNat, hcontrol⟩
    rw [Char.ofNat_toNat] at hescape
    rw [hescape, pieceOf, if_pos ⟨hcontrol, by simp [hlf, hcr, htab, hback, hfeed]⟩]
    exact scanString_unit hunit rest
  · rw [pieceOf, if_neg fun h => hcontrol h.1]
    exact scanString_plain hcontrol hquote hbackslash rest

/-! ### Strings -/

/-- A text is read back as the parts of its characters. -/
theorem scanString_flatMap (cs rest : List Char) :
    scanString (cs.flatMap escapeChar ++ '"' :: rest) = (cs.map pieceOf, .closed rest) := by
  induction cs with
  | nil => rw [List.flatMap_nil, List.nil_append, scanString, List.map_nil]
  | cons c cs ih =>
    rw [List.flatMap_cons, List.append_assoc, scanString_escapeChar, ih, List.map_cons]

/-- The number of a control character is no surrogate, so it stands for itself. -/
theorem joinPieces_unit {n : Nat} (h : n < 32) (ending : StringEnd) (rest : List Piece) :
    joinPieces ending (.unit n :: rest) = (joinPieces ending rest).map (Char.ofNat n :: ·) := by
  have htrailing : isTrailing n = false := by
    simp only [isTrailing, Bool.and_eq_false_iff, decide_eq_false_iff_not]
    omega
  have hleading : isLeading n = false := by
    simp only [isLeading, Bool.and_eq_false_iff, decide_eq_false_iff_not]
    omega
  cases rest with
  | nil => simp [joinPieces, htrailing, hleading]
  | cons piece rest => cases piece <;> simp [joinPieces, htrailing, hleading]

/-- The parts of characters give the characters again. -/
theorem joinPieces_map (cs rest : List Char) :
    joinPieces (.closed rest) (cs.map pieceOf) = .ok cs := by
  induction cs with
  | nil => rfl
  | cons c cs ih =>
    rw [List.map_cons, pieceOf]
    split_ifs with h
    · rw [joinPieces_unit h.1, ih, Char.ofNat_toNat]
      rfl
    · rw [joinPieces, ih]
      rfl

/-- **A string literal is read back**, and reading goes on behind it. -/
theorem readString_escaped (text : String) (rest : List Char) :
    readString (text.toList.flatMap escapeChar ++ '"' :: rest) = (.ok text, .ok rest) := by
  rw [readString, scanString_flatMap]
  simp only [joinPieces_map, Except.map, String.ofList_toList]

theorem toList_quote (text : String) :
    (quote text).toList = '"' :: (text.toList.flatMap escapeChar ++ ['"']) := by
  rw [quote, String.toList_ofList]
  rfl

/-! ### Blanks -/

theorem skipBlanks_replicate (n : Nat) (rest : List Char) :
    skipBlanks (List.replicate n ' ' ++ rest) = skipBlanks rest := by
  induction n with
  | zero => rfl
  | succ n ih =>
    rw [List.replicate_succ, List.cons_append, skipBlanks, if_pos (by decide), ih]

/-- The start of a line is blank. -/
theorem skipBlanks_lineStart (depth : Nat) (rest : List Char) :
    skipBlanks ((Value.lineStart depth).toList ++ rest) = skipBlanks rest := by
  have htext : (Value.lineStart depth).toList = '\n' :: List.replicate (2 * depth) ' ' := by
    simp [Value.lineStart, String.toList_append]
  rw [htext, List.cons_append, skipBlanks, if_pos (by decide), skipBlanks_replicate]

/-! ### Values -/

/-- The value is read back from its text at any depth, whatever follows. -/
def ReadsBack (value : Value) : Prop :=
  ∀ (depth fuel : Nat) (rest : List Char),
    readValue (fuel + 1) ((value.prettyAt depth).toList ++ rest) = (.ofValue value, some rest)

theorem readsBack_null : ReadsBack .null := by
  intro depth fuel rest
  simp [Value.prettyAt, readValue, skipBlanks, isBlank, wordDraft, readWord, Draft.ofValue]

theorem readsBack_string (text : String) : ReadsBack (.string text) := by
  intro depth fuel rest
  rw [Value.prettyAt, toList_quote, List.cons_append, List.append_assoc, List.singleton_append]
  simp [readValue, skipBlanks, isBlank, stringDraft, readString_escaped, Draft.ofValue]

/-! ### Members -/

/-- The text of a member. -/
def memberText (depth : Nat) (member : String × Value) : String :=
  quote member.1 ++ ": " ++ member.2.prettyAt depth

theorem prettyMembers_eq_map (depth : Nat) (members : List (String × Value)) :
    Value.prettyMembers depth members = members.map (memberText depth) := by
  induction members with
  | nil => rfl
  | cons member rest ih => rw [Value.prettyMembers, ih, List.map_cons, memberText]

/-- The colon and the value of a member are read back. -/
theorem readMember_readsBack {value : Value} (h : ReadsBack value) (depth fuel : Nat)
    (rest : List Char) :
    readMember (fuel + 2) (':' :: ' ' :: ((value.prettyAt depth).toList ++ rest)) =
      (.ofValue value, some rest) := by
  have hblank : ∀ cs, readValue (fuel + 1) (' ' :: cs) = readValue (fuel + 1) cs := by
    intro cs
    rw [readValue, readValue, skipBlanks, if_pos (by decide)]
  rw [readMember, skipBlanks, if_neg (by decide)]
  simp only [hblank]
  exact h depth fuel rest

section Members

variable {member : String × Value} {cs rest after : List Char}

theorem toList_memberText (depth : Nat) (member : String × Value) (rest : List Char) :
    (memberText depth member).toList ++ rest =
      '"' :: (member.1.toList.flatMap escapeChar ++ '"' ::
        ':' :: ' ' :: ((member.2.prettyAt depth).toList ++ rest)) := by
  rw [memberText, String.toList_append, String.toList_append, toList_quote]
  simp

/-- A member is read back, and then the brace behind it. -/
theorem readMembers_last (h : ReadsBack member.2) (depth fuel : Nat) (afterComma : Bool)
    (hcs : skipBlanks cs = (memberText depth member).toList ++ rest)
    (hrest : skipBlanks rest = '\x7d' :: after) :
    readMembers (fuel + 3) afterComma cs =
      ([(.ok member.1, .ofValue member.2)], .closed, some after) := by
  rw [readMembers, hcs, toList_memberText]
  simp only [readString_escaped, readMember_readsBack h, hrest]

/-- A member is read back, and then the members after the comma. -/
theorem readMembers_next (h : ReadsBack member.2) (depth fuel : Nat) (afterComma : Bool)
    (hcs : skipBlanks cs = (memberText depth member).toList ++ rest)
    (hrest : skipBlanks rest = ',' :: after) :
    readMembers (fuel + 3) afterComma cs =
      ((.ok member.1, .ofValue member.2) :: (readMembers (fuel + 2) true after).1,
        (readMembers (fuel + 2) true after).2) := by
  rw [readMembers, hcs, toList_memberText]
  simp only [readString_escaped, readMember_readsBack h, hrest]

end Members

/-- What stands between the braces of an object with a line for each member. -/
def membersText (depth : Nat) (members : List (String × Value)) : List Char :=
  (separated ("," ++ Value.lineStart depth) (members.map (memberText depth))).toList

theorem membersText_cons_cons (depth : Nat) (first second : String × Value)
    (rest : List (String × Value)) :
    membersText depth (first :: second :: rest) =
      (memberText depth first).toList ++ ',' ::
        ((Value.lineStart depth).toList ++ membersText depth (second :: rest)) := by
  rw [membersText, List.map_cons, List.map_cons, separated]
  · simp [String.toList_append, membersText]
  · simp

/-- The first member starts with its key. -/
theorem exists_membersText_eq (depth : Nat) {members : List (String × Value)} (hne : members ≠ [])
    (rest : List Char) : ∃ tail, membersText depth members ++ rest = '"' :: tail := by
  cases members with
  | nil => exact absurd rfl hne
  | cons member others =>
    cases others with
    | nil => exact ⟨_, toList_memberText depth member rest⟩
    | cons next others =>
      rw [membersText_cons_cons, List.append_assoc, toList_memberText]
      exact ⟨_, rfl⟩

/-- **The members of an object are read back** one after the other.  Each one takes one unit of
fuel, and the last one two more. -/
theorem readMembers_pretty {members : List (String × Value)} (hne : members ≠ [])
    (h : ∀ member ∈ members, ReadsBack member.2) (depth fuel : Nat) (afterComma : Bool)
    {cs rest after : List Char} (hcs : skipBlanks cs = membersText depth members ++ rest)
    (hrest : skipBlanks rest = '\x7d' :: after) :
    readMembers (fuel + members.length + 2) afterComma cs =
      (Draft.ofMembers members, .closed, some after) := by
  induction members generalizing afterComma cs with
  | nil => exact absurd rfl hne
  | cons member others ih =>
    have hmember := h member List.mem_cons_self
    cases others with
    | nil => exact readMembers_last hmember depth fuel afterComma hcs hrest
    | cons next others =>
      rw [membersText_cons_cons, List.append_assoc, List.cons_append, List.append_assoc] at hcs
      have hstart : skipBlanks ((Value.lineStart depth).toList ++
          (membersText depth (next :: others) ++ rest)) =
            membersText depth (next :: others) ++ rest := by
        obtain ⟨tail, htail⟩ := exists_membersText_eq depth (List.cons_ne_nil next others) rest
        rw [skipBlanks_lineStart, htail]
        rfl
      have hothers := ih (by simp) (fun other hother => h other (List.mem_cons_of_mem _ hother))
        true hstart
      have hnext := readMembers_next hmember depth (fuel + others.length + 1) afterComma hcs rfl
      rw [show fuel + others.length + 1 + 2 = fuel + (next :: others).length + 2 from rfl,
        hothers] at hnext
      exact hnext

/-! ### Whole objects -/

/-- The keys of the members increase. -/
def Increasing {α : Type} (members : List (String × α)) : Prop :=
  members.Pairwise fun first second => first.1 < second.1

/-- A key behind all others goes to the end. -/
theorem setMember_of_lt {α : Type} {members : List (String × α)} {key : String} (value : α)
    (h : ∀ member ∈ members, member.1 < key) :
    setMember key value members = members ++ [(key, value)] := by
  induction members with
  | nil => rfl
  | cons member rest ih =>
    have hlt := h member List.mem_cons_self
    have hnot : ¬ key < member.1 := String.lt_asymm hlt
    have hne : key ≠ member.1 := by
      rintro rfl
      exact String.lt_irrefl _ hlt
    rw [setMember, if_neg hnot, if_neg hne,
      ih fun other hother => h other (List.mem_cons_of_mem _ hother)]
    rfl

/-- Members with increasing keys stay as they are. -/
theorem valueMembers_ofMembers {room : Nat} {known members : List (String × Value)}
    (hkeys : Increasing (known ++ members))
    (hvalues : ∀ member ∈ members, (Draft.ofValue member.2).value room = .ok member.2) :
    Draft.valueMembers room .closed known (Draft.ofMembers members) = .ok (known ++ members) := by
  induction members generalizing known with
  | nil => simp [Draft.ofMembers, Draft.valueMembers, ObjectEnd.check, Except.map]
  | cons member rest ih =>
    obtain ⟨key, value⟩ := member
    have hlt : ∀ other ∈ known, other.1 < key := fun other hother =>
      (List.pairwise_append.mp hkeys).2.2 other hother (key, value) List.mem_cons_self
    have hkeys' : Increasing ((known ++ [(key, value)]) ++ rest) := by
      rwa [List.append_assoc]
    have hrest := ih hkeys' fun other hother => hvalues other (List.mem_cons_of_mem _ hother)
    have hvalue := hvalues (key, value) List.mem_cons_self
    rw [List.append_assoc, List.singleton_append] at hrest
    simp only [Draft.ofMembers, Draft.valueMembers, hvalue, bind, Except.bind]
    rw [setMember_of_lt value hlt, hrest]

/-- There are at least as many characters as members. -/
theorem length_le_membersText (depth : Nat) (members : List (String × Value)) :
    members.length ≤ (membersText depth members).length := by
  induction members with
  | nil => exact Nat.zero_le _
  | cons member others ih =>
    cases others with
    | nil =>
      obtain ⟨tail, htail⟩ := exists_membersText_eq depth (List.cons_ne_nil member []) []
      rw [List.append_nil] at htail
      simp [htail]
    | cons next others =>
      rw [membersText_cons_cons]
      simp only [List.length_append, List.length_cons] at ih ⊢
      omega

/-- The text of an object that is not empty: its members between lines with the braces. -/
theorem toList_pretty {members : List (String × Value)} (hne : members ≠ []) :
    ((Value.object members).pretty ++ "\n").toList =
      '\x7b' :: ((Value.lineStart 1).toList ++ (membersText 1 members ++
        ((Value.lineStart 0).toList ++ ['\x7d', '\n']))) := by
  have hblock : Value.block 0 "\x7b" "\x7d" (members.map (memberText 1)) =
      "\x7b" ++ Value.lineStart 1 ++
        separated ("," ++ Value.lineStart 1) (members.map (memberText 1)) ++
          Value.lineStart 0 ++ "\x7d" := by
    cases members with
    | nil => exact absurd rfl hne
    | cons member others => rfl
  rw [Value.pretty, Value.prettyAt, prettyMembers_eq_map, hblock]
  simp [String.toList_append, membersText]

/-- **An object with increasing keys is read back from its text**, when each of its values is and
nothing lies deeper than may. -/
theorem fromText_pretty {members : List (String × Value)} (hkeys : Increasing members)
    (hvalues : ∀ member ∈ members, ReadsBack member.2)
    (hroom : ∀ member ∈ members,
      (Draft.ofValue member.2).value (Reader.textRoom - 1) = .ok member.2) :
    Reader.fromText .anything ((Value.object members).pretty ++ "\n") = .ok (.object members) := by
  by_cases hne : members = []
  · subst hne
    rfl
  have hdraft : Draft.ofText ((Value.object members).pretty ++ "\n").toList =
      (.object (Draft.ofMembers members) .closed, some ['\n']) := by
    rw [Draft.ofText, toList_pretty hne]
    generalize htail : (Value.lineStart 0).toList ++ ['\x7d', '\n'] = tail
    have hbrace : skipBlanks tail = ['\x7d', '\n'] := by
      rw [← htail, skipBlanks_lineStart]
      rfl
    obtain ⟨inside, hinside⟩ := exists_membersText_eq 1 hne tail
    have hstart : skipBlanks ('"' :: inside) = '"' :: inside := rfl
    have hlength : members.length ≤ (membersText 1 members ++ tail).length := by
      rw [List.length_append]
      exact Nat.le_add_right_of_le (length_le_membersText 1 members)
    generalize hcount : ('\x7b' :: ((Value.lineStart 1).toList ++
      (membersText 1 members ++ tail))).length = count
    rw [List.length_cons, List.length_append] at hcount
    have hfuel : 3 * count + 3 = 3 * count - members.length + members.length + 2 + 1 := by omega
    have hmembers := readMembers_pretty hne hvalues 1 (3 * count - members.length) false
      (hstart.trans hinside.symm) hbrace
    rw [hfuel, readValue, skipBlanks, if_neg (by decide)]
    simp only [skipBlanks_lineStart, hinside, hstart]
    exact congrArg (fun read => (Draft.object read.1 read.2.1, read.2.2)) hmembers
  have hvalue : (Draft.object (Draft.ofMembers members) .closed).value Reader.textRoom =
      .ok (.object members) := by
    have hread : Draft.valueMembers (Reader.textRoom - 1) .closed [] (Draft.ofMembers members) =
        .ok ([] ++ members) := valueMembers_ofMembers hkeys hroom
    change (Draft.valueMembers (Reader.textRoom - 1) .closed [] (Draft.ofMembers members)).map
      Value.object = .ok (.object members)
    rw [hread]
    rfl
  rw [Reader.fromText, hdraft]
  simp [Reader.anything, hvalue, Reading.lift, Reader.nothingMore, skipBlanks, isBlank, Except.map]

end Wiring.Json
