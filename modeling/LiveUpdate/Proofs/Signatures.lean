import LiveUpdate.Proofs.Computation
import LiveUpdate.Signature.Basic
import Mathlib.Data.String.Basic

/-!
# Texts of signatures

Reading a signature takes back what writing it gives, when every type name in it is one:
not empty, without blanks at its ends, without reserved characters, and neither a keyword
nor the text of an array.  Reading gives only such signatures, whatever blanks the text
had, and the text that is written for one is part of the text that was read.
-/

set_option autoImplicit false

namespace LiveUpdate

theorem dropBlanks_of_head? {cs : List Char} (first : ∀ c ∈ cs.head?, isBlank c = false) :
    dropBlanks cs = cs := by
  cases cs with
  | nil => rfl
  | cons c rest =>
    have visible : isBlank c = false := first c rfl
    unfold dropBlanks
    rw [List.dropWhile_cons_of_neg (by simp [visible])]

theorem trimBlanks_of_ends {cs : List Char} (first : ∀ c ∈ cs.head?, isBlank c = false)
    (last : ∀ c ∈ cs.getLast?, isBlank c = false) : trimBlanks cs = cs := by
  unfold trimBlanks
  rw [dropBlanks_of_head? first, dropBlanks_of_head? (by rwa [List.head?_reverse]),
    List.reverse_reverse]

theorem dropBlanks_sublist (cs : List Char) : (dropBlanks cs).Sublist cs :=
  (List.dropWhile_suffix _).sublist

theorem trimBlanks_sublist (cs : List Char) : (trimBlanks cs).Sublist cs := by
  have inner := (dropBlanks_sublist (dropBlanks cs).reverse).reverse
  rw [List.reverse_reverse] at inner
  exact inner.trans (dropBlanks_sublist cs)

/-- A text whose blanks in front were dropped does not start with one. -/
theorem head?_dropBlanks (cs : List Char) : ∀ c ∈ (dropBlanks cs).head?, isBlank c = false := by
  intro c mem
  have := List.head?_dropWhile_not isBlank cs
  unfold dropBlanks at mem
  cases found : (cs.dropWhile isBlank).head? with
  | none =>
    rw [found] at mem
    cases mem
  | some c' =>
    rw [found] at this mem
    cases mem
    simpa using this

namespace TypeSig

/-- The texts that are neither names nor arrays. -/
def keywords : List (List Char) := [int.chars, float.chars, bool.chars, str.chars, void.chars]

/-- A text that can be the name of a type in a signature. -/
structure IsName (cs : List Char) : Prop where
  nonempty : cs ≠ []
  first : ∀ c ∈ cs.head?, isBlank c = false
  last : ∀ c ∈ cs.getLast?, isBlank c = false
  unreserved : ∀ c ∈ cs, isReserved c = false
  notArray : ¬ ['[', ']'] <:+ cs
  notKeyword : cs ∉ keywords

/-- A type signature in which every type name is one. -/
def WellFormed : TypeSig → Prop
  | ref name => IsName name.toList
  | array element => element.WellFormed
  | _ => True

/-- A text has no reserved character exactly when none of its characters is one. -/
theorem any_isReserved_eq_false {cs : List Char} :
    cs.any isReserved = false ↔ ∀ c ∈ cs, isReserved c = false := by
  simp only [List.any_eq_false, Bool.not_eq_true]

theorem ofName_of_not_keyword {cs : List Char} (other : cs ∉ keywords) :
    ofName cs = if cs.any isReserved then .error (.invalidSignature (String.ofList cs))
      else .ok (ref (String.ofList cs)) := by
  simp only [keywords, List.mem_cons, List.not_mem_nil, or_false, not_or] at other
  obtain ⟨int, float, bool, str, void⟩ := other
  unfold ofName
  simp only [int, float, bool, str, void, if_false]

theorem ofName_of_isName {cs : List Char} (isName : IsName cs) :
    ofName cs = .ok (ref (String.ofList cs)) := by
  rw [ofName_of_not_keyword isName.notKeyword, any_isReserved_eq_false.2 isName.unreserved]
  rfl

/-- What a text without brackets is read as: a keyword, or the text itself as a name. -/
theorem ofName_eq_ok {cs : List Char} {sig : TypeSig} (read : ofName cs = .ok sig) :
    sig.chars = cs ∧
      (sig.WellFormed ∨ sig = ref (String.ofList cs) ∧ cs ∉ keywords ∧
        ∀ c ∈ cs, isReserved c = false) := by
  by_cases keyword : cs ∈ keywords
  · simp only [keywords, List.mem_cons, List.not_mem_nil, or_false] at keyword
    rcases keyword with rfl | rfl | rfl | rfl | rfl
    all_goals
      cases read
      exact ⟨rfl, .inl trivial⟩
  · rw [ofName_of_not_keyword keyword] at read
    split at read
    · cases read
    next free =>
      cases read
      exact ⟨String.toList_ofList,
        .inr ⟨rfl, keyword, any_isReserved_eq_false.1 (Bool.eq_false_iff.2 free)⟩⟩

theorem chars_array (element : TypeSig) : (array element).chars = element.chars ++ ['[', ']'] :=
  rfl

theorem chars_ne_nil {sig : TypeSig} (wellFormed : sig.WellFormed) : sig.chars ≠ [] := by
  cases sig with
  | ref name => exact wellFormed.nonempty
  | array element =>
    rw [chars_array]
    simp
  | _ => exact List.cons_ne_nil _ _

theorem head?_chars {sig : TypeSig} (wellFormed : sig.WellFormed) :
    ∀ c ∈ sig.chars.head?, isBlank c = false := by
  induction sig with
  | ref name => exact wellFormed.first
  | array element ih =>
    have nonempty : element.chars ≠ [] := chars_ne_nil wellFormed
    rw [chars_array, List.head?_append_of_ne_nil _ nonempty]
    exact ih wellFormed
  | _ =>
    intro c mem
    cases mem
    rfl

theorem getLast?_chars {sig : TypeSig} (wellFormed : sig.WellFormed) :
    ∀ c ∈ sig.chars.getLast?, isBlank c = false := by
  cases sig with
  | ref name => exact wellFormed.last
  | array element =>
    rw [chars_array, List.getLast?_append]
    intro c mem
    cases mem
    rfl
  | _ =>
    intro c mem
    cases mem
    rfl

theorem isReserved_of_mem_chars {sig : TypeSig} (wellFormed : sig.WellFormed) :
    ∀ c ∈ sig.chars, isReserved c = false := by
  induction sig with
  | ref name => exact wellFormed.unreserved
  | array element ih =>
    rw [chars_array, List.forall_mem_append]
    exact ⟨ih wellFormed, any_isReserved_eq_false.1 (by decide)⟩
  | _ => exact any_isReserved_eq_false.1 (by decide)

/-- Reading a signature from its last character takes back its text. -/
theorem readBackward_chars {sig : TypeSig} (wellFormed : sig.WellFormed) :
    readBackward sig.chars.reverse = .ok sig := by
  induction sig with
  | ref name =>
    have isName : IsName name.toList := wellFormed
    show readBackward name.toList.reverse = _
    -- a name goes on to `ofName` at once: it has no blank and no brackets at its end
    cases backward : name.toList.reverse with
    | nil => exact absurd (List.reverse_eq_nil_iff.1 backward) isName.nonempty
    | cons c rest =>
      have forward : (c :: rest).reverse = name.toList := by
        rw [← backward, List.reverse_reverse]
      have visible : isBlank c = false := by
        refine isName.last c ?_
        rw [← forward]
        simp
      unfold readBackward
      split
      · cases ‹_ = []›
      next rest' bracketed =>
        refine absurd ⟨rest'.reverse, ?_⟩ isName.notArray
        rw [← forward, bracketed]
        simp
      next c' rest' _ same =>
        cases same
        rw [visible, forward, ofName_of_isName isName, String.ofList_toList]
        rfl
  | array element ih =>
    rw [chars_array, List.reverse_append]
    show (readBackward element.chars.reverse).map array = _
    rw [ih wellFormed]
    rfl
  | _ => rfl

/-- Reading takes back the text of a signature. -/
theorem read_chars {sig : TypeSig} (wellFormed : sig.WellFormed) :
    read sig.chars = .ok sig := by
  unfold read
  rw [dropBlanks_of_head? (head?_chars wellFormed)]
  exact readBackward_chars wellFormed

/-- Reading from the last character gives a signature whose text is part of what was read. -/
theorem readBackward_eq_ok {cs : List Char} {sig : TypeSig}
    (first : ∀ c ∈ cs.getLast?, isBlank c = false) (read : readBackward cs = .ok sig) :
    sig.WellFormed ∧ sig.chars.reverse.Sublist cs := by
  -- What is left to read still has no blank in front, that is, at the end of the reversed text.
  fun_induction readBackward cs generalizing sig with
  | case1 => cases read
  | case2 rest ih =>
    have first' : ∀ c ∈ rest.getLast?, isBlank c = false := by
      intro c mem
      refine first c ?_
      rw [List.getLast?_cons_cons, List.getLast?_cons, mem]
      rfl
    cases inner : readBackward rest with
    | error error =>
      rw [inner] at read
      cases read
    | ok element =>
      rw [inner] at read
      cases read
      obtain ⟨wellFormed, part⟩ := ih first' inner
      rw [chars_array, List.reverse_append]
      exact ⟨wellFormed, (part.cons_cons _).cons_cons _⟩
  | case3 c rest _ blank ih =>
    have first' : ∀ c' ∈ rest.getLast?, isBlank c' = false := by
      intro c' mem
      refine first c' ?_
      rw [List.getLast?_cons, mem]
      rfl
    obtain ⟨wellFormed, part⟩ := ih first' read
    exact ⟨wellFormed, part.cons c⟩
  | case4 c rest notBracketed visible =>
    obtain ⟨text, known⟩ := ofName_eq_ok read
    refine ⟨?_, by rw [text, List.reverse_reverse]⟩
    rcases known with wellFormed | ⟨rfl, notKeyword, unreserved⟩
    · exact wellFormed
    · show IsName (String.ofList (c :: rest).reverse).toList
      rw [String.toList_ofList]
      refine ⟨by simp, by rwa [List.head?_reverse], ?_, unreserved, ?_, notKeyword⟩
      · intro c' mem
        rw [List.getLast?_reverse] at mem
        cases mem
        simpa using visible
      · rintro ⟨front, split⟩
        have backward := congrArg List.reverse split
        rw [List.reverse_reverse, List.reverse_append] at backward
        obtain ⟨rfl, rfl⟩ := List.cons.inj backward
        exact notBracketed front.reverse rfl rfl

/-- Reading gives a signature whose text is part of what was read. -/
theorem read_eq_ok {cs : List Char} {sig : TypeSig} (read : read cs = .ok sig) :
    sig.WellFormed ∧ sig.chars.Sublist cs := by
  have first : ∀ c ∈ (dropBlanks cs).reverse.getLast?, isBlank c = false := by
    rw [List.getLast?_reverse]
    exact head?_dropBlanks cs
  obtain ⟨wellFormed, part⟩ := readBackward_eq_ok first read
  exact ⟨wellFormed, (List.reverse_sublist.1 part).trans (dropBlanks_sublist cs)⟩

theorem parse_text {sig : TypeSig} (wellFormed : sig.WellFormed) : parse sig.text = .ok sig := by
  unfold parse text
  rw [String.toList_ofList]
  exact read_chars wellFormed

/-- The text of a signature that was read is no longer than what was read. -/
theorem parse_eq_ok {s : String} {sig : TypeSig} (parsed : parse s = .ok sig) :
    sig.WellFormed ∧ sig.text.utf8ByteSize ≤ s.utf8ByteSize := by
  obtain ⟨wellFormed, part⟩ := read_eq_ok parsed
  refine ⟨wellFormed, ?_⟩
  rw [text, String.utf8ByteSize_ofList, ← String.utf8Len_toList]
  exact String.utf8Len_le_of_sublist part

end TypeSig

namespace MethodSig

/-- A method signature in which every type name is one. -/
def WellFormed (sig : MethodSig) : Prop :=
  (∀ p ∈ sig.params, p.WellFormed) ∧ sig.result.WellFormed

/-- The first closing arrow is the one behind a text without closing parentheses. -/
theorem splitArrow_append {front : List Char} (open_ : ')' ∉ front) (back : List Char) :
    splitArrow (front ++ ')' :: '-' :: '>' :: back) = some (front, back) := by
  induction front with
  | nil => rfl
  | cons c front ih =>
    rw [List.mem_cons, not_or] at open_
    rw [List.cons_append, splitArrow]
    · rw [ih open_.2]
      rfl
    · intro rest same
      exact absurd same.symm open_.1

theorem splitArrow_eq_some {cs front back : List Char} (split : splitArrow cs = some (front, back)) :
    cs = front ++ ')' :: '-' :: '>' :: back := by
  fun_induction splitArrow cs generalizing front with
  | case1 => cases split
  | case2 rest =>
    cases split
    rfl
  | case3 c rest _ ih =>
    obtain ⟨⟨front', back'⟩, inner, same⟩ := Option.map_eq_some_iff.1 split
    cases same
    rw [ih inner, List.cons_append]

theorem commaSeparated_cons {texts : List (List Char)} (some_ : texts ≠ []) (cs : List Char) :
    commaSeparated (cs :: texts) = cs ++ ',' :: commaSeparated texts := by
  cases texts with
  | nil => exact absurd rfl some_
  | cons cs' texts => rfl

theorem splitCommas_ne_nil (cs : List Char) : splitCommas cs ≠ [] := by
  cases cs with
  | nil => exact List.cons_ne_nil _ _
  | cons c rest =>
    unfold splitCommas
    split
    · exact List.cons_ne_nil _ _
    · split <;> exact List.cons_ne_nil _ _

theorem splitCommas_of_free {cs : List Char} (free : ',' ∉ cs) : splitCommas cs = [cs] := by
  induction cs with
  | nil => rfl
  | cons c rest ih =>
    rw [List.mem_cons, not_or] at free
    rw [splitCommas, if_neg (Ne.symm free.1), ih free.2]

theorem splitCommas_append {cs : List Char} (free : ',' ∉ cs) (rest : List Char) :
    splitCommas (cs ++ ',' :: rest) = cs :: splitCommas rest := by
  induction cs with
  | nil => rfl
  | cons c cs ih =>
    rw [List.mem_cons, not_or] at free
    rw [List.cons_append, splitCommas, if_neg (Ne.symm free.1), ih free.2]

/-- The pieces between commas are those that were put together. -/
theorem splitCommas_commaSeparated {texts : List (List Char)} (some_ : texts ≠ [])
    (free : ∀ cs ∈ texts, ',' ∉ cs) : splitCommas (commaSeparated texts) = texts := by
  induction texts with
  | nil => exact absurd rfl some_
  | cons cs texts ih =>
    rw [List.forall_mem_cons] at free
    cases texts with
    | nil => exact splitCommas_of_free free.1
    | cons cs' texts =>
      rw [commaSeparated_cons (List.cons_ne_nil _ _), splitCommas_append free.1,
        ih (List.cons_ne_nil _ _) free.2]

/-- The pieces between commas make up the text. -/
theorem commaSeparated_splitCommas (cs : List Char) : commaSeparated (splitCommas cs) = cs := by
  induction cs with
  | nil => rfl
  | cons c rest ih =>
    unfold splitCommas
    split
    next comma =>
      rw [commaSeparated_cons (splitCommas_ne_nil rest), ih, comma]
      rfl
    · cases pieces : splitCommas rest with
      | nil => exact absurd pieces (splitCommas_ne_nil rest)
      | cons piece pieces' =>
        rw [pieces] at ih
        rw [← ih]
        cases pieces' <;> rfl

/-- Texts whose pieces are parts of others make up a part of what those make up. -/
theorem commaSeparated_sublist {texts pieces : List (List Char)}
    (parts : List.Forall₂ List.Sublist texts pieces) :
    (commaSeparated texts).Sublist (commaSeparated pieces) := by
  induction parts with
  | nil => exact List.Sublist.refl _
  | @cons cs piece texts pieces part parts ih =>
    cases parts with
    | nil => exact part
    | cons part' parts' =>
      rw [commaSeparated_cons (List.cons_ne_nil _ _), commaSeparated_cons (List.cons_ne_nil _ _)]
      exact part.append (ih.cons_cons ',')

theorem mapM_read_chars {params : List TypeSig} (wellFormed : ∀ p ∈ params, p.WellFormed) :
    (params.map TypeSig.chars).mapM TypeSig.read = .ok params := by
  induction params with
  | nil => rfl
  | cons p params ih =>
    rw [List.forall_mem_cons] at wellFormed
    rw [List.map_cons, List.mapM_cons, TypeSig.read_chars wellFormed.1, ih wellFormed.2]
    rfl

theorem mapM_read_eq_ok {pieces : List (List Char)} {params : List TypeSig}
    (read : pieces.mapM TypeSig.read = .ok params) :
    (∀ p ∈ params, p.WellFormed) ∧
      List.Forall₂ List.Sublist (params.map TypeSig.chars) pieces := by
  induction pieces generalizing params with
  | nil =>
    cases read
    exact ⟨List.forall_mem_nil _, .nil⟩
  | cons piece pieces ih =>
    rw [List.mapM_cons] at read
    obtain ⟨p, head, read⟩ := Exec.bind_eq_ok.1 read
    obtain ⟨params', tail, read⟩ := Exec.bind_eq_ok.1 read
    cases read
    obtain ⟨wellFormed, part⟩ := TypeSig.read_eq_ok head
    obtain ⟨wellFormed', parts⟩ := ih tail
    exact ⟨List.forall_mem_cons.2 ⟨wellFormed, wellFormed'⟩, .cons part parts⟩

theorem head?_commaSeparated {cs : List Char} (some_ : cs ≠ []) (texts : List (List Char)) :
    (commaSeparated (cs :: texts)).head? = cs.head? := by
  cases texts with
  | nil => rfl
  | cons cs' texts =>
    rw [commaSeparated_cons (List.cons_ne_nil _ _), List.head?_append_of_ne_nil _ some_]

theorem readParams_chars {params : List TypeSig} (wellFormed : ∀ p ∈ params, p.WellFormed) :
    readParams (commaSeparated (params.map TypeSig.chars)) = .ok params := by
  cases params with
  | nil => rfl
  | cons p params =>
    have own := wellFormed p List.mem_cons_self
    have some_ : p.chars ≠ [] := TypeSig.chars_ne_nil own
    have starts := head?_commaSeparated some_ (params.map TypeSig.chars)
    have visible : dropBlanks (commaSeparated ((p :: params).map TypeSig.chars)) ≠ [] := by
      rw [List.map_cons, dropBlanks_of_head? (by rw [starts]; exact TypeSig.head?_chars own)]
      intro empty
      rw [empty] at starts
      exact some_ (List.head?_eq_none_iff.1 starts.symm)
    have free : ∀ cs ∈ (p :: params).map TypeSig.chars, ',' ∉ cs := by
      intro cs mem comma
      obtain ⟨q, mem', rfl⟩ := List.mem_map.1 mem
      have reserved := TypeSig.isReserved_of_mem_chars (wellFormed q mem') ',' comma
      cases reserved
    unfold readParams
    rw [if_neg (by simpa using visible), splitCommas_commaSeparated (by simp) free,
      mapM_read_chars wellFormed]

theorem readParams_eq_ok {cs : List Char} {params : List TypeSig}
    (read : readParams cs = .ok params) :
    (∀ p ∈ params, p.WellFormed) ∧ (commaSeparated (params.map TypeSig.chars)).Sublist cs := by
  unfold readParams at read
  split at read
  · cases read
    exact ⟨List.forall_mem_nil _, List.nil_sublist _⟩
  · obtain ⟨wellFormed, parts⟩ := mapM_read_eq_ok read
    have part := commaSeparated_sublist parts
    rw [commaSeparated_splitCommas] at part
    exact ⟨wellFormed, part⟩

theorem not_mem_commaSeparated {params : List TypeSig} (wellFormed : ∀ p ∈ params, p.WellFormed) :
    ')' ∉ commaSeparated (params.map TypeSig.chars) := by
  induction params with
  | nil => exact List.not_mem_nil
  | cons p params ih =>
    rw [List.forall_mem_cons] at wellFormed
    have own : ')' ∉ p.chars := by
      intro mem
      have reserved := TypeSig.isReserved_of_mem_chars wellFormed.1 ')' mem
      cases reserved
    cases params with
    | nil => exact own
    | cons q params =>
      rw [List.map_cons, commaSeparated_cons (by simp), List.mem_append, List.mem_cons, not_or,
        not_or]
      exact ⟨own, by decide, ih wellFormed.2⟩

theorem chars_eq (sig : MethodSig) :
    sig.chars = '(' :: (commaSeparated (sig.params.map TypeSig.chars) ++
      ')' :: '-' :: '>' :: sig.result.chars) := rfl

theorem trimBlanks_chars {sig : MethodSig} (wellFormed : sig.WellFormed) :
    trimBlanks sig.chars = sig.chars := by
  refine trimBlanks_of_ends (fun c mem => ?_) ?_
  · cases mem
    rfl
  · have some_ : sig.result.chars ≠ [] := TypeSig.chars_ne_nil wellFormed.2
    have ends : sig.chars = ('(' :: commaSeparated (sig.params.map TypeSig.chars) ++
        [')', '-', '>']) ++ sig.result.chars := by
      rw [chars_eq]
      simp
    rw [ends, List.getLast?_append_of_ne_nil _ some_]
    exact TypeSig.getLast?_chars wellFormed.2

/-- Reading takes back the text of a signature. -/
theorem read_chars {sig : MethodSig} (wellFormed : sig.WellFormed) :
    read sig.chars = .ok sig := by
  unfold MethodSig.read
  rw [trimBlanks_chars wellFormed, chars_eq]
  simp only [splitArrow_append (not_mem_commaSeparated wellFormed.1),
    readParams_chars wellFormed.1, TypeSig.read_chars wellFormed.2]
  rfl

/-- Reading gives a signature whose text is part of what was read. -/
theorem read_eq_ok {cs : List Char} {sig : MethodSig} (read : read cs = .ok sig) :
    sig.WellFormed ∧ sig.chars.Sublist cs := by
  unfold MethodSig.read at read
  split at read
  next rest trimmed =>
    split at read
    next front back split =>
      obtain ⟨params, read₁, read⟩ := Exec.bind_eq_ok.1 read
      obtain ⟨result, read₂, read⟩ := Exec.bind_eq_ok.1 read
      cases read
      obtain ⟨wellFormed, part⟩ := readParams_eq_ok read₁
      obtain ⟨wellFormed', part'⟩ := TypeSig.read_eq_ok read₂
      have whole := trimBlanks_sublist cs
      rw [trimmed, splitArrow_eq_some split] at whole
      have parts := part.append (((part'.cons_cons '>').cons_cons '-').cons_cons ')')
      exact ⟨⟨wellFormed, wellFormed'⟩, (parts.cons_cons '(').trans whole⟩
    · cases read
  · cases read

theorem parse_text {sig : MethodSig} (wellFormed : sig.WellFormed) : parse sig.text = .ok sig := by
  unfold parse text
  rw [String.toList_ofList]
  exact read_chars wellFormed

/-- The text of a signature that was read is no longer than what was read. -/
theorem parse_eq_ok {s : String} {sig : MethodSig} (parsed : parse s = .ok sig) :
    sig.WellFormed ∧ sig.text.utf8ByteSize ≤ s.utf8ByteSize := by
  obtain ⟨wellFormed, part⟩ := read_eq_ok parsed
  refine ⟨wellFormed, ?_⟩
  rw [text, String.utf8ByteSize_ofList, ← String.utf8Len_toList]
  exact String.utf8Len_le_of_sublist part

end MethodSig

end LiveUpdate
