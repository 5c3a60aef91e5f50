import CenterOfMass.Proofs.Json.Compact

namespace CenterOfMass.Json

/-- Whether a character may stand between the parts of a document without being one. -/
def isSpace (c : Char) : Bool := [' ', '\n', '\t', '\r'].contains c

/-- A document without the blanks between its parts. Within quotes everything stays, and what stands
behind a backslash does not end them. -/
def withoutSpace : Bool → List Char → List Char
  | _, [] => []
  | false, c :: cs => if isSpace c then withoutSpace false cs else c :: withoutSpace (c = '"') cs
  | true, '\\' :: c :: cs => '\\' :: c :: withoutSpace true cs
  | true, c :: cs => c :: withoutSpace (c ≠ '"') cs

/-- Reads a document with blanks between its parts. -/
def readSpaced? (document : String) : Option (Json String) :=
  read? (String.ofList (withoutSpace false document.toList))

section Parts

variable {cs : List Char} (rest : List Char)

/-- What has neither blanks nor quotes stays. -/
theorem withoutSpace_append (h : ∀ c ∈ cs, isSpace c = false ∧ c ≠ '"') :
    withoutSpace false (cs ++ rest) = cs ++ withoutSpace false rest := by
  induction cs with
  | nil => rfl
  | cons c cs ih =>
    obtain ⟨⟨hspace, hquote⟩, hcs⟩ := List.forall_mem_cons.mp h
    simp [withoutSpace, hspace, hquote, ih hcs]

theorem withoutSpace_space (h : ∀ c ∈ cs, isSpace c = true) :
    withoutSpace false (cs ++ rest) = withoutSpace false rest := by
  induction cs with
  | nil => rfl
  | cons c cs ih =>
    obtain ⟨hspace, hcs⟩ := List.forall_mem_cons.mp h
    simp [withoutSpace, hspace, ih hcs]

/-- A mark that is neither a blank nor a quote stays. -/
theorem withoutSpace_mark {c : Char} (h : isSpace c = false ∧ c ≠ '"') :
    withoutSpace false (c :: rest) = c :: withoutSpace false rest := by
  simp [withoutSpace, h]

/-- Within quotes stays what neither ends them nor is behind a backslash. -/
theorem withoutSpace_inside (h : ∀ c ∈ cs, c ≠ '"' ∧ c ≠ '\\') :
    withoutSpace true (cs ++ rest) = cs ++ withoutSpace true rest := by
  induction cs with
  | nil => rfl
  | cons c cs ih =>
    obtain ⟨⟨hquote, hslash⟩, hcs⟩ := List.forall_mem_cons.mp h
    rw [List.cons_append, withoutSpace]
    · simp [hquote, ih hcs]
    · rintro d ds rfl
      exact absurd rfl hslash

theorem hexDigit_ne : ∀ d < 16, hexDigit d ≠ '"' ∧ hexDigit d ≠ '\\' := by decide

/-- A character within quotes stands for itself, or is one letter or more behind a backslash. -/
theorem escaped_cases (c : Char) :
    (∃ d tail, escaped c = '\\' :: d :: tail ∧ ∀ e ∈ tail, e ≠ '"' ∧ e ≠ '\\') ∨
      escaped c = [c] ∧ c ≠ '"' ∧ c ≠ '\\' := by
  unfold escaped
  by_cases hlow : c < ' '
  · have hnat : c.toNat < 32 := hlow
    have htail : ∀ e ∈ ['0', '0', hexDigit (c.toNat / 16), hexDigit (c.toNat % 16)],
        e ≠ '"' ∧ e ≠ '\\' := by
      simp only [List.forall_mem_cons]
      exact ⟨by decide, by decide, hexDigit_ne _ (by omega), hexDigit_ne _ (by omega), nofun⟩
    left
    split_ifs
    all_goals first
      | exact ⟨_, [], rfl, nofun⟩
      | exact ⟨_, _, rfl, htail⟩
  · split_ifs with hquote hslash
    case neg => exact .inr ⟨rfl, hquote, hslash⟩
    all_goals exact .inl ⟨_, [], rfl, nofun⟩

/-- A text in quotes stays as it is written. -/
theorem withoutSpace_quoted (s : String) :
    withoutSpace false ((quoted s).toList ++ rest) =
      (quoted s).toList ++ withoutSpace false rest := by
  have hinside : ∀ cs : List Char, withoutSpace true (cs.flatMap escaped ++ '"' :: rest) =
      cs.flatMap escaped ++ '"' :: withoutSpace false rest := by
    intro cs
    induction cs with
    | nil => rfl
    | cons c cs ih =>
      rw [List.flatMap_cons, List.append_assoc, List.append_assoc]
      rcases escaped_cases c with ⟨d, tail, hc, htail⟩ | ⟨hc, hplain⟩
      · rw [hc, List.cons_append, List.cons_append, withoutSpace, withoutSpace_inside _ htail, ih]
        rfl
      · rw [hc, withoutSpace_inside _ (by simpa using hplain), ih]
  rw [toList_quoted]
  simp only [List.cons_append, List.append_assoc, List.nil_append]
  exact congrArg ('"' :: ·) (hinside s.toList)

end Parts

/-- The characters of a value on indented lines. -/
def prettyChars (depth : Nat) (value : Json Float) : List Char := (value.prettyOnto depth "").toList

/-- The characters of the items of a list, each behind a comma on a line of its own. -/
def prettyItemsChars (depth : Nat) (items : List (Json Float)) : List Char :=
  items.flatMap fun item => ',' :: (newLine depth).toList ++ item.prettyChars depth

/-- The characters of the members of an object, each behind a comma on a line of its own. -/
def prettyMembersChars (depth : Nat) (members : List (String × Json Float)) : List Char :=
  members.flatMap fun member => ',' :: (newLine depth).toList ++ (quoted member.1).toList ++
    ':' :: ' ' :: member.2.prettyChars depth

theorem prettyItemsChars_cons (depth : Nat) (item : Json Float) (items : List (Json Float)) :
    prettyItemsChars depth (item :: items) =
      ',' :: ((newLine depth).toList ++
        (item.prettyChars depth ++ prettyItemsChars depth items)) := by
  simp [prettyItemsChars]

theorem prettyMembersChars_cons (depth : Nat) (name : String) (value : Json Float)
    (members : List (String × Json Float)) :
    prettyMembersChars depth ((name, value) :: members) =
      ',' :: ((newLine depth).toList ++ ((quoted name).toList ++
        (':' :: ' ' :: (value.prettyChars depth ++ prettyMembersChars depth members)))) := by
  simp [prettyMembersChars]

mutual

/-- A value is added to a text as it is written on its own. -/
theorem toList_prettyOnto (depth : Nat) (out : String) : (value : Json Float) →
    (value.prettyOnto depth out).toList = out.toList ++ value.prettyChars depth
  | .null => by simp [prettyChars, prettyOnto]
  | .bool _ => by simp [prettyChars, prettyOnto]
  | .natural _ => by simp [prettyChars, prettyOnto]
  | .real _ => by simp [prettyChars, prettyOnto]
  | .text _ => by simp [prettyChars, prettyOnto]
  | .array [] => by simp [prettyChars, prettyOnto]
  | .array (item :: items) => by
    rw [prettyChars, prettyOnto, prettyOnto]
    simp only [String.toList_append]
    rw [toList_prettyItems _ _ items, toList_prettyItems _ _ items, toList_prettyOnto _ _ item,
      toList_prettyOnto _ _ item]
    simp
  | .object [] => by simp [prettyChars, prettyOnto]
  | .object ((name, value) :: members) => by
    rw [prettyChars, prettyOnto, prettyOnto]
    simp only [String.toList_append]
    rw [toList_prettyMembers _ _ members, toList_prettyMembers _ _ members,
      toList_prettyOnto _ _ value, toList_prettyOnto _ _ value]
    simp

theorem toList_prettyItems (depth : Nat) (out : String) : (items : List (Json Float)) →
    (prettyItems depth out items).toList = out.toList ++ prettyItemsChars depth items
  | [] => by simp [prettyItems, prettyItemsChars]
  | item :: items => by
    rw [prettyItems, toList_prettyItems _ _ items, toList_prettyOnto _ _ item]
    simp [prettyItemsChars_cons]

theorem toList_prettyMembers (depth : Nat) (out : String) :
    (members : List (String × Json Float)) →
    (prettyMembers depth out members).toList = out.toList ++ prettyMembersChars depth members
  | [] => by simp [prettyMembers, prettyMembersChars]
  | (name, value) :: members => by
    rw [prettyMembers, toList_prettyMembers _ _ members, toList_prettyOnto _ _ value]
    simp [prettyMembersChars_cons]

end

theorem prettyChars_array (depth : Nat) (item : Json Float) (items : List (Json Float)) :
    (array (item :: items)).prettyChars depth =
      '[' :: ((newLine (depth + 1)).toList ++ (item.prettyChars (depth + 1) ++
        (prettyItemsChars (depth + 1) items ++ ((newLine depth).toList ++ [']'])))) := by
  rw [prettyChars, prettyOnto]
  simp only [String.toList_append, toList_prettyItems, toList_prettyOnto]
  simp

theorem prettyChars_object (depth : Nat) (name : String) (value : Json Float)
    (members : List (String × Json Float)) :
    (object ((name, value) :: members)).prettyChars depth =
      '{' :: ((newLine (depth + 1)).toList ++ ((quoted name).toList ++
        (':' :: ' ' :: (value.prettyChars (depth + 1) ++
          (prettyMembersChars (depth + 1) members ++ ((newLine depth).toList ++ ['}'])))))) := by
  rw [prettyChars, prettyOnto]
  simp only [String.toList_append, toList_prettyMembers, toList_prettyOnto]
  simp

section Words

variable {value : Json Float} (rest : List Char)

theorem isSpace_of_isWordChar {c : Char} (h : isWordChar c = true) :
    isSpace c = false ∧ c ≠ '"' := by
  constructor
  · rw [← Bool.not_eq_true]
    intro hspace
    simp only [isSpace, List.contains_cons, List.contains_nil, Bool.or_false, Bool.or_eq_true,
      beq_iff_eq] at hspace
    rcases hspace with rfl | rfl | rfl | rfl <;> cases h
  · rintro rfl
    cases h

theorem IsWord.withoutSpace (h : value.IsWord) :
    Json.withoutSpace false (value.chars ++ rest) =
      value.chars ++ Json.withoutSpace false rest :=
  withoutSpace_append rest fun c hc => isSpace_of_isWordChar (h.isWordChar c hc)

theorem withoutSpace_blank : withoutSpace false (' ' :: rest) = withoutSpace false rest := rfl

theorem withoutSpace_newLine (depth : Nat) :
    withoutSpace false ((newLine depth).toList ++ rest) = withoutSpace false rest := by
  apply withoutSpace_space
  simp [newLine, isSpace]

end Words

-- By the constructors of a value, as it is written.
mutual

/-- A value on indented lines is the value on one line but for the blanks between its parts. -/
theorem withoutSpace_prettyChars (depth : Nat) (rest : List Char) : (value : Json Float) →
    withoutSpace false (value.prettyChars depth ++ rest) = value.chars ++ withoutSpace false rest
  | .null => isWord_null.withoutSpace rest
  | .bool b => (isWord_bool b).withoutSpace rest
  | .natural n => (isWord_natural n).withoutSpace rest
  | .real x => (isWord_real x).withoutSpace rest
  | .text s => by
    have hchars : (text s).prettyChars depth = (quoted s).toList := by
      simp [prettyChars, prettyOnto, scalarText]
    rw [hchars, chars_text, withoutSpace_quoted]
  | .array [] => by
    have hpretty : (array []).prettyChars depth = ['[', ']'] := by
      simp [prettyChars, prettyOnto, scalarText]
    rw [hpretty, List.cons_append, List.cons_append, withoutSpace_mark _ (by decide),
      withoutSpace_mark _ (by decide)]
    rfl
  | .array (item :: items) => by
    rw [prettyChars_array, chars_array]
    simp only [List.cons_append, List.append_assoc, List.nil_append]
    rw [withoutSpace_mark _ (by decide), withoutSpace_newLine, withoutSpace_prettyChars _ _ item,
      withoutSpace_prettyItems _ _ items, withoutSpace_newLine, withoutSpace_mark _ (by decide)]
  | .object [] => by
    have hpretty : (object []).prettyChars depth = ['{', '}'] := by
      simp [prettyChars, prettyOnto, scalarText]
    rw [hpretty, List.cons_append, List.cons_append, withoutSpace_mark _ (by decide),
      withoutSpace_mark _ (by decide)]
    rfl
  | .object ((name, value) :: members) => by
    rw [prettyChars_object, chars_object]
    simp only [List.cons_append, List.append_assoc, List.nil_append]
    rw [withoutSpace_mark _ (by decide), withoutSpace_newLine, withoutSpace_quoted,
      withoutSpace_mark _ (by decide), withoutSpace_blank,
      withoutSpace_prettyChars _ _ value, withoutSpace_prettyMembers _ _ members,
      withoutSpace_newLine, withoutSpace_mark _ (by decide)]

theorem withoutSpace_prettyItems (depth : Nat) (rest : List Char) : (items : List (Json Float)) →
    withoutSpace false (prettyItemsChars depth items ++ rest) =
      itemsChars items ++ withoutSpace false rest
  | [] => rfl
  | item :: items => by
    rw [prettyItemsChars_cons, itemsChars, List.flatMap_cons]
    simp only [List.cons_append, List.append_assoc]
    rw [withoutSpace_mark _ (by decide), withoutSpace_newLine, withoutSpace_prettyChars _ _ item,
      withoutSpace_prettyItems _ _ items]
    rfl

theorem withoutSpace_prettyMembers (depth : Nat) (rest : List Char) :
    (members : List (String × Json Float)) →
    withoutSpace false (prettyMembersChars depth members ++ rest) =
      membersChars members ++ withoutSpace false rest
  | [] => rfl
  | (name, value) :: members => by
    rw [prettyMembersChars_cons, membersChars, List.flatMap_cons]
    simp only [List.cons_append, List.append_assoc]
    rw [withoutSpace_mark _ (by decide), withoutSpace_newLine, withoutSpace_quoted,
      withoutSpace_mark _ (by decide), withoutSpace_blank, withoutSpace_prettyChars _ _ value,
      withoutSpace_prettyMembers _ _ members]
    rfl

end

/-- A document on indented lines is read as it was written, with its numbers as they are written. -/
theorem readSpaced?_pretty (value : Json Float) :
    readSpaced? value.pretty = some value.spelled := by
  have hchars := withoutSpace_prettyChars 0 [] value
  rw [List.append_nil, withoutSpace, List.append_nil] at hchars
  unfold readSpaced?
  rw [show value.pretty.toList = value.prettyChars 0 from rfl, hchars, chars, String.ofList_toList]
  exact read?_compact value

end CenterOfMass.Json
