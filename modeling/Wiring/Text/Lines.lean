/-!
# Lines of a text

A line ends at a line feed, or at a carriage return directly followed by a line feed;
the end marks are not part of the line.  A carriage return anywhere else stays.  A text
that ends with an end mark has no empty line after it.

## Main definitions

* `lines` — the lines of a text, as lists of characters.
* `linesOf` — the same on strings.

## Main results

* `mem_of_mem_linesOf` — the characters of a line.
-/

namespace Wiring.Text

/-- The lines of a text, end marks dropped. -/
def lines : List Char → List (List Char)
  | [] => []
  | '\n' :: cs => [] :: lines cs
  | '\r' :: '\n' :: cs => [] :: lines cs
  | c :: cs =>
      match lines cs with
      | [] => [[c]]
      | line :: rest => (c :: line) :: rest

/-- The lines of a string. -/
def linesOf (text : String) : List String := (lines text.toList).map String.ofList

/-- The characters of a line are those of the text, without its line feeds. -/
theorem mem_of_mem_lines {cs line : List Char} (hline : line ∈ lines cs) {c : Char}
    (hc : c ∈ line) : c ∈ cs ∧ c ≠ '\n' := by
  have hall : ∀ line ∈ lines cs, ∀ c ∈ line, c ∈ cs ∧ c ≠ '\n' := by
    clear hline hc
    fun_induction lines cs with
    | case1 => simp
    | case2 cs ih => simpa using fun line h c hc => ⟨.inr (ih line h c hc).1, (ih line h c hc).2⟩
    | case3 cs ih =>
      simpa using fun line h c hc => ⟨.inr (.inr (ih line h c hc).1), (ih line h c hc).2⟩
    | case4 c cs hfeed _ _ _ => simpa using fun h => hfeed h
    | case5 c cs hfeed _ first rest hcs ih =>
      -- the character goes to the front of the first line of the rest
      rw [hcs, List.forall_mem_cons] at ih
      rw [List.forall_mem_cons]
      refine ⟨fun d hd => ?_, fun line hline d hd =>
        ⟨List.mem_cons_of_mem _ (ih.2 line hline d hd).1, (ih.2 line hline d hd).2⟩⟩
      rcases List.mem_cons.mp hd with rfl | hd
      · exact ⟨List.mem_cons_self, fun h => hfeed h⟩
      · exact ⟨List.mem_cons_of_mem _ (ih.1 d hd).1, (ih.1 d hd).2⟩
  exact hall line hline c hc

theorem mem_of_mem_linesOf {text line : String} (hline : line ∈ linesOf text) {c : Char}
    (hc : c ∈ line.toList) : c ∈ text.toList ∧ c ≠ '\n' := by
  obtain ⟨cs, hcs, rfl⟩ := List.mem_map.mp hline
  rw [String.toList_ofList] at hc
  exact mem_of_mem_lines hcs hc

/-- Strings put together with a line feed between neighbours. -/
def unlines : List String → String
  | [] => ""
  | [line] => line
  | line :: rest => line ++ "\n" ++ unlines rest

end Wiring.Text
