import ApiHandbook.Proofs.Registry.Scopes

/-!
# Chains of scopes

The scopes from one outwards, told step by step: a declared scope lies in the one it was declared
in, any other is cut before its last underscore. A table can lead in circles; where it does not,
the scopes that are searched are exactly this chain.
-/
namespace ApiHandbook

namespace Text

theorem splitLast?_eq_none_iff {mark : Char} {text : List Char} :
    splitLast? mark text = none ↔ mark ∉ text := by
  refine ⟨fun unsplit listed => ?_, splitLast?_none⟩
  obtain ⟨after, before, reversed, absent⟩ :=
    List.eq_append_cons_of_mem (List.mem_reverse.mpr listed)
  have split : text = before.reverse ++ mark :: after.reverse := by
    rw [← List.reverse_reverse text, reversed]
    simp
  rw [split, splitLast?_append _ (by simpa using absent)] at unsplit
  cases unsplit

theorem splitLast?_eq_some_iff {mark : Char} {text before after : List Char} :
    splitLast? mark text = some (before, after) ↔
      text = before ++ mark :: after ∧ mark ∉ after := by
  constructor
  · intro split
    obtain ⟨behind, front, reversed, absent⟩ : ∃ behind front,
        text.reverse = behind ++ mark :: front ∧ mark ∉ behind := by
      apply List.eq_append_cons_of_mem
      rw [List.mem_reverse]
      by_contra missing
      rw [splitLast?_none missing] at split
      cases split
    have text_eq : text = front.reverse ++ mark :: behind.reverse := by
      rw [← List.reverse_reverse text, reversed]
      simp
    have absent : mark ∉ behind.reverse := by simpa using absent
    rw [text_eq, splitLast?_append _ absent] at split
    cases split
    exact ⟨text_eq, absent⟩
  · rintro ⟨rfl, absent⟩
    exact splitLast?_append before absent

end Text

open Text

/-- The scope around a named one. -/
inductive Around (table : List (String × Option String)) (scope : String) : Option String → Prop
  | declared {parent : Option String} (listed : table.find? (·.1 == scope) = some (scope, parent)) :
      Around table scope parent
  | cut {before after : String} (undeclared : table.find? (·.1 == scope) = none)
      (written : scope = before ++ "_" ++ after) (last : '_' ∉ after.toList) :
      Around table scope (some before)
  | outermost (undeclared : table.find? (·.1 == scope) = none) (whole : '_' ∉ scope.toList) :
      Around table scope none

/-- The named scopes from one outwards. The global scope, absent or empty, is behind the last. -/
inductive ScopeChain (table : List (String × Option String)) : Option String → List String → Prop
  | absent : ScopeChain table none []
  | empty : ScopeChain table (some "") []
  | named {scope : String} {parent : Option String} {outer : List String} (nonempty : scope ≠ "")
      (around : Around table scope parent) (rest : ScopeChain table parent outer) :
      ScopeChain table (some scope) (scope :: outer)

variable {table : List (String × Option String)}

/-! ## One step outwards -/

theorem splitLast?_of_written {scope before after : String}
    (written : scope = before ++ "_" ++ after) (last : '_' ∉ after.toList) :
    splitLast? '_' scope.toList = some (before.toList, after.toList) :=
  splitLast?_eq_some_iff.mpr ⟨by simp [written], last⟩

theorem Around.unique {scope : String} {one two : Option String} (first : Around table scope one)
    (second : Around table scope two) : one = two := by
  cases first with
  | declared listed =>
    cases second with
    | declared also =>
      rw [listed] at also
      cases also
      rfl
    | cut undeclared _ _ => rw [listed] at undeclared; cases undeclared
    | outermost undeclared _ => rw [listed] at undeclared; cases undeclared
  | cut undeclared written last =>
    have split := splitLast?_of_written written last
    cases second with
    | declared listed => rw [listed] at undeclared; cases undeclared
    | cut _ also absent =>
      rw [splitLast?_of_written also absent] at split
      rw [String.toList_inj.mp (Prod.mk.inj (Option.some.inj split)).1]
    | outermost _ whole => rw [splitLast?_none whole] at split; cases split
  | outermost undeclared whole =>
    cases second with
    | declared listed => rw [listed] at undeclared; cases undeclared
    | cut _ written last =>
      have split := splitLast?_of_written written last
      rw [splitLast?_none whole] at split
      cases split
    | outermost _ _ => rfl

theorem find?_eraseP_other (table : List (String × Option String)) {scope other : String}
    (different : scope ≠ other) :
    (table.eraseP (·.1 == other)).find? (·.1 == scope) = table.find? (·.1 == scope) := by
  induction table with
  | nil => rfl
  | cons entry rest ih =>
    rw [List.eraseP_cons]
    cases erased : entry.1 == other with
    | true =>
      have unequal : entry.1 ≠ scope := fun same => different (same ▸ beq_iff_eq.mp erased)
      exact (List.find?_cons_of_neg (by simpa using unequal)).symm
    | false => rw [cond_false, List.find?_cons, List.find?_cons, ih]

/-- What is declared of other scopes does not count. -/
theorem Around.erase {scope other : String} {parent : Option String} (different : scope ≠ other)
    (around : Around table scope parent) :
    Around (table.eraseP (·.1 == other)) scope parent := by
  have same := find?_eraseP_other table different
  cases around with
  | declared listed => exact .declared (same.trans listed)
  | cut undeclared written last => exact .cut (same.trans undeclared) written last
  | outermost undeclared whole => exact .outermost (same.trans undeclared) whole

/-- The search takes one step outwards and goes on, behind a declared scope without its entry. -/
theorem scopesFrom_around (table : List (String × Option String)) {scope : String}
    (nonempty : scope ≠ "") :
    ∃ parent rest, Around table scope parent ∧
      (rest = table ∨ rest = table.eraseP (·.1 == scope)) ∧
      scopesFrom table scope = scope :: scopesFrom rest (parent.getD "") := by
  have global : ∀ rest, scopesFrom rest ((none : Option String).getD "") = [] := by
    intro rest
    rw [Option.getD_none, scopesFrom, if_pos rfl]
  rw [scopesFrom, if_neg nonempty]
  split
  · rename_i own found
    have own_eq : own = scope := by simpa using List.find?_some found
    exact ⟨none, table, .declared (own_eq ▸ found), .inl rfl, by rw [global]⟩
  · rename_i own parent found
    have own_eq : own = scope := by simpa using List.find?_some found
    exact ⟨some parent, _, .declared (own_eq ▸ found), .inr rfl, rfl⟩
  · rename_i undeclared
    split
    · rename_i before after split
      obtain ⟨written, last⟩ := splitLast?_eq_some_iff.mp split
      have joined : scope = String.ofList before ++ "_" ++ String.ofList after := by
        rw [← String.toList_inj]
        simpa using written
      exact ⟨some (String.ofList before), table, .cut undeclared joined (by simpa using last),
        .inl rfl, rfl⟩
    · rename_i unsplit
      exact ⟨none, table, .outermost undeclared (splitLast?_eq_none_iff.mp unsplit), .inl rfl,
        by rw [global]⟩

/-! ## The whole chain -/

theorem ScopeChain.unique {scope : Option String} {one two : List String}
    (first : ScopeChain table scope one) (second : ScopeChain table scope two) : one = two := by
  induction first generalizing two with
  | absent =>
    cases second
    rfl
  | empty =>
    cases second with
    | empty => rfl
    | named nonempty _ _ => exact absurd rfl nonempty
  | named nonempty around _ ih =>
    cases second with
    | empty => exact absurd rfl nonempty
    | named _ also rest =>
      rw [around.unique also] at ih
      rw [ih rest]

theorem ScopeChain.nonempty {scope : Option String} {scopes : List String}
    (chain : ScopeChain table scope scopes) : ∀ name ∈ scopes, name ≠ "" := by
  induction chain with
  | absent => simp
  | empty => simp
  | named nonempty _ _ ih =>
    intro name listed
    rcases List.mem_cons.mp listed with rfl | outer
    · exact nonempty
    · exact ih name outer

theorem ScopeChain.from_mem {scope : Option String} {scopes : List String} {name : String}
    (chain : ScopeChain table scope scopes) (listed : name ∈ scopes) :
    ∃ own, ScopeChain table (some name) own ∧ own.length ≤ scopes.length := by
  induction chain with
  | absent => cases listed
  | empty => cases listed
  | @named scope parent outer nonempty around rest ih =>
    rcases List.mem_cons.mp listed with rfl | further
    · exact ⟨name :: outer, .named nonempty around rest, Nat.le_refl _⟩
    · obtain ⟨own, chain, shorter⟩ := ih further
      exact ⟨own, chain, Nat.le_succ_of_le shorter⟩

/-- A scope does not come again in its own chain: the chain would go on without an end. -/
theorem ScopeChain.not_mem {scope : String} {outer : List String}
    (chain : ScopeChain table (some scope) (scope :: outer)) : scope ∉ outer := by
  intro again
  cases chain with
  | named nonempty around rest =>
    obtain ⟨own, repeated, shorter⟩ := rest.from_mem again
    have same := repeated.unique (.named nonempty around rest)
    rw [same, List.length_cons] at shorter
    omega

theorem ScopeChain.erase {scope : Option String} {scopes : List String} {other : String}
    (chain : ScopeChain table scope scopes) (missing : other ∉ scopes) :
    ScopeChain (table.eraseP (·.1 == other)) scope scopes := by
  induction chain with
  | absent => exact .absent
  | empty => exact .empty
  | named nonempty around _ ih =>
    rw [List.mem_cons, not_or] at missing
    exact .named nonempty (around.erase fun same => missing.1 same.symm) (ih missing.2)

theorem ScopeChain.scopesFrom_eq {scope : Option String} {scopes : List String}
    (chain : ScopeChain table scope scopes) : scopesFrom table (scope.getD "") = scopes := by
  induction scopes generalizing table scope with
  | nil =>
    cases chain <;> rw [scopesFrom] <;> rfl
  | cons first outer ih =>
    have fresh : first ∉ outer := by
      cases chain with
      | named nonempty around rest => exact (ScopeChain.named nonempty around rest).not_mem
    cases chain with
    | named nonempty around rest =>
      obtain ⟨parent, remaining, also, kept, step⟩ := scopesFrom_around table nonempty
      rw [Option.getD_some, step, ← around.unique also]
      congr 1
      apply ih
      rcases kept with rfl | rfl
      · exact rest
      · exact rest.erase fresh

/-- Every scope has a chain. -/
def Registry.FiniteScopes (registry : Registry) : Prop :=
  ∀ scope, ∃ scopes, ScopeChain registry.scopes scope scopes

theorem Around.exists (table : List (String × Option String)) {scope : String}
    (nonempty : scope ≠ "") : ∃ parent, Around table scope parent := by
  obtain ⟨parent, _, around, _⟩ := scopesFrom_around table nonempty
  exact ⟨parent, around⟩

/-- Where declared scopes lie in shorter ones, no chain goes in circles. -/
theorem exists_scopeChain
    (outwards : ∀ entry ∈ table, ∀ parent, entry.2 = some parent → parent.length < entry.1.length)
    (scope : Option String) : ∃ scopes, ScopeChain table scope scopes := by
  induction length_eq : (scope.getD "").length using Nat.strongRecOn generalizing scope with
  | _ length ih =>
    cases scope with
    | none => exact ⟨[], .absent⟩
    | some scope =>
      by_cases nonempty : scope = ""
      · exact ⟨[], nonempty ▸ .empty⟩
      · obtain ⟨parent, around⟩ := Around.exists table nonempty
        have shorter : parent = none ∨ (parent.getD "").length < length := by
          cases around with
          | @declared parent listed =>
            cases parent with
            | none => exact .inl rfl
            | some parent =>
              have less := outwards _ (List.mem_of_find?_eq_some listed) parent rfl
              exact .inr (length_eq ▸ less)
          | cut _ written _ =>
            right
            rw [← length_eq, Option.getD_some, Option.getD_some, written]
            simp only [String.length_append]
            have underscore : "_".length = 1 := rfl
            omega
          | outermost _ _ => exact .inl rfl
        have outside : ∃ outer, ScopeChain table parent outer := by
          rcases shorter with rfl | less
          · exact ⟨[], .absent⟩
          · exact ih _ less parent rfl
        obtain ⟨outer, rest⟩ := outside
        exact ⟨scope :: outer, .named nonempty around rest⟩

/-- The scopes of a chain are cut in front of underscores if those of the table are. -/
theorem ScopeChain.isChain_cut {scope : Option String} {scopes : List String}
    (cuts : ∀ entry ∈ table, ∀ parent, entry.2 = some parent → parent ≠ "" →
      ∃ part, entry.1 = parent ++ "_" ++ part)
    (chain : ScopeChain table scope scopes) :
    scopes.IsChain fun inner outer => ∃ part, inner = outer ++ "_" ++ part := by
  induction chain with
  | absent => exact .nil
  | empty => exact .nil
  | @named scope parent outer _ around rest ih =>
    cases rest with
    | absent => exact .singleton _
    | empty => exact .singleton _
    | @named next _ _ nonempty _ _ =>
      refine .cons_cons ?_ ih
      cases around with
      | declared listed =>
        exact cuts _ (List.mem_of_find?_eq_some listed) next rfl nonempty
      | cut _ written _ => exact ⟨_, written⟩

end ApiHandbook
