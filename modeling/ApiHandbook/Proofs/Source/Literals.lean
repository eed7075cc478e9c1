import Mathlib.Data.List.Basic
import ApiHandbook.Source.StringLiteral

/-!
# What string literals look like

The text between the quotes of a literal and the text of a splice are given by a grammar, and the
reader of literals accepts exactly what the grammar describes. A literal is told by itself: what
follows it matters only for an empty one, which is no literal in front of another quote.
-/
namespace ApiHandbook.Source

def Fence.quotes : Fence → List Char
  | .single => ['"']
  | .triple => ['"', '"', '"']

/-- The parts that a literal consists of: text between quotes, and splices. -/
inductive Spot where
  | text (fence : Fence) | splice

def Spot.closing : Spot → List Char
  | .text fence => fence.quotes
  | .splice => [')']

/-- The inside of a literal or of a splice. What a literal shows of its text are its characters and
a gap for each splice. A line break behind a backslash is escaped, also in literals that stand in
splices. A quote at the end of a text is judged together with the quotes that close it. -/
inductive LiteralBody : Spot → (shown : List (Option Char)) → (escaped : Nat) → List Char → Prop
  | nil (spot : Spot) : LiteralBody spot [] 0 []
  | char {fence : Fence} {shown : List (Option Char)} {escaped : Nat} {c : Char} {rest : List Char}
      (plain : c ≠ '\\') (inside : ¬ fence.quotes <+: c :: (rest ++ fence.quotes))
      (one_line : fence = .single → c ≠ '\n')
      (further : LiteralBody (.text fence) shown escaped rest) :
      LiteralBody (.text fence) (some c :: shown) escaped (c :: rest)
  | escape {fence : Fence} {shown : List (Option Char)} {escaped : Nat} {c : Char}
      {rest : List Char} (no_splice : c ≠ '(')
      (further : LiteralBody (.text fence) shown escaped rest) :
      LiteralBody (.text fence) (some '\\' :: some c :: shown)
        ((if c = '\n' then 1 else 0) + escaped) ('\\' :: c :: rest)
  | splice {fence : Fence} {shown : List (Option Char)} {within escaped : Nat}
      {inner rest : List Char} (spliced : LiteralBody .splice [] within inner)
      (further : LiteralBody (.text fence) shown escaped rest) :
      LiteralBody (.text fence) (none :: shown) (within + escaped)
        ('\\' :: '(' :: inner ++ ')' :: rest)
  | code {escaped : Nat} {c : Char} {rest : List Char} (plain : c ∉ ['"', '(', ')'])
      (further : LiteralBody .splice [] escaped rest) : LiteralBody .splice [] escaped (c :: rest)
  | group {within escaped : Nat} {inner rest : List Char}
      (grouped : LiteralBody .splice [] within inner)
      (further : LiteralBody .splice [] escaped rest) :
      LiteralBody .splice [] (within + escaped) ('(' :: inner ++ ')' :: rest)
  | literal {fence : Fence} {shown : List (Option Char)} {within escaped : Nat}
      {inner rest : List Char} (quoted : LiteralBody (.text fence) shown within inner)
      (apart : fence = .single → inner = [] → rest.head? ≠ some '"')
      (further : LiteralBody .splice [] escaped rest) :
      LiteralBody .splice [] (within + escaped)
        (fence.quotes ++ inner ++ fence.quotes ++ rest)

theorem LiteralBody.escaped_le {spot : Spot} {shown : List (Option Char)} {escaped : Nat}
    {text : List Char} (body : LiteralBody spot shown escaped text) :
    escaped ≤ text.count '\n' := by
  induction body with
  | nil => exact Nat.le_refl 0
  | char _ _ _ _ ih | code _ _ ih => exact Nat.le_trans ih (List.count_le_count_cons)
  | @escape _ _ _ c rest _ _ ih =>
    by_cases lineBreak : c = '\n' <;> simp [lineBreak] <;> omega
  | splice _ _ inner further | group _ _ inner further =>
    simp only [List.cons_append, List.count_cons, List.count_append]
    omega
  | literal _ _ _ inner further =>
    simp only [List.count_append]
    omega

/-! ## Steps of the reader -/

/-- One step of the reader: from a place inside the literals around it, through `text`, in which
`counted` line breaks count, to the next place. What follows matters where quotes are told. -/
inductive LiteralStep (line : Nat) : Place → List Splice → (text : List Char) → (counted : Nat) →
    Place → List Splice → (rest : List Char) → Prop
  | char {literal : OpenLiteral} {outer : List Splice} {c : Char} {rest : List Char}
      (plain : c ≠ '\\') (inside : ¬ literal.fence.quotes <+: c :: rest)
      (one_line : literal.fence = .single → c ≠ '\n') :
      LiteralStep line (.text literal) outer [c] (if c = '\n' then 1 else 0)
        (.text (literal.push c)) outer rest
  | escape {literal : OpenLiteral} {outer : List Splice} {c : Char} {rest : List Char}
      (no_splice : c ≠ '(') :
      LiteralStep line (.text literal) outer ['\\', c] 0 (.text ((literal.push '\\').push c)) outer
        rest
  | openSplice (literal : OpenLiteral) (outer : List Splice) (rest : List Char) :
      LiteralStep line (.text literal) outer ['\\', '('] 0 (.splice ⟨literal.flush, 0⟩) outer rest
  | closeSplice (literal : OpenLiteral) (outer : List Splice) (rest : List Char) :
      LiteralStep line (.splice ⟨literal, 0⟩) outer [')'] 0 (.text literal) outer rest
  | code {splice : Splice} {outer : List Splice} {c : Char} {rest : List Char}
      (plain : c ∉ ['"', '(', ')']) :
      LiteralStep line (.splice splice) outer [c] (if c = '\n' then 1 else 0) (.splice splice) outer
        rest
  | openGroup (splice : Splice) (outer : List Splice) (rest : List Char) :
      LiteralStep line (.splice splice) outer ['('] 0
        (.splice { splice with depth := splice.depth + 1 }) outer rest
  | closeGroup (splice : Splice) (outer : List Splice) (rest : List Char) :
      LiteralStep line (.splice { splice with depth := splice.depth + 1 }) outer [')'] 0
        (.splice splice) outer rest
  | openLiteral {splice : Splice} {outer : List Splice} {fence : Fence} {rest : List Char}
      (apart : fence = .single → ¬ ['"', '"'] <+: rest) :
      LiteralStep line (.splice splice) outer fence.quotes 0 (.text ⟨fence, line, [], []⟩)
        (splice :: outer) rest
  | closeLiteral {literal : OpenLiteral} {fence : Fence} {splice : Splice} {outer : List Splice}
      {rest : List Char} (same : literal.fence = fence) :
      LiteralStep line (.text literal) (splice :: outer) fence.quotes 0 (.splice splice) outer rest

/-- The reader gets from one place to another through `text`, in which `counted` line breaks count,
when `rest` follows. -/
def LiteralReads (line : Nat) (place : Place) (outer : List Splice) (text : List Char)
    (counted : Nat) (next : Place) (around : List Splice) (rest : List Char) : Prop :=
  ∀ length breaks, scanLiteral place outer length breaks line (text ++ rest) =
    scanLiteral next around (length + text.length) (breaks + counted) (line + counted) rest

theorem LiteralStep.reads {line counted : Nat} {place next : Place} {outer around : List Splice}
    {text rest : List Char} (step : LiteralStep line place outer text counted next around rest) :
    LiteralReads line place outer text counted next around rest := by
  intro length breaks
  cases step with
  | @char literal _ c _ plain inside one_line =>
    rw [List.singleton_append, scanLiteral.eq_def]
    by_cases lineBreak : c = '\n'
    · have triple : literal.fence = .triple := by
        cases fence : literal.fence with
        | single => exact absurd lineBreak (one_line fence)
        | triple => rfl
      simp [lineBreak, triple]
    · by_cases quote : c = '"'
      · subst quote
        have triple : literal.fence = .triple := by
          cases fence : literal.fence with
          | single => simp [fence, Fence.quotes] at inside
          | triple => rfl
        simp only [if_true, triple]
        simp only [triple, Fence.quotes] at inside
        split <;> simp_all
      · simp [quote, plain, lineBreak]
  | escape no_splice =>
    rw [List.cons_append, List.singleton_append, scanLiteral.eq_def]
    simp only [Char.reduceEq, if_false, if_true]
    rfl
  | openSplice | closeSplice | openGroup | closeGroup =>
    rw [scanLiteral.eq_def]
    rfl
  | @code _ _ c _ plain =>
    simp only [List.mem_cons, List.not_mem_nil, or_false, not_or] at plain
    rw [List.singleton_append, scanLiteral.eq_def]
    by_cases lineBreak : c = '\n' <;> simp [plain, lineBreak]
  | @openLiteral _ _ fence _ apart =>
    cases fence with
    | single =>
      have alone := apart rfl
      rw [Fence.quotes, List.singleton_append, scanLiteral.eq_def]
      simp only [if_true]
      split
      · simp_all
      · rfl
    | triple =>
      rw [Fence.quotes, List.cons_append, scanLiteral.eq_def]
      rfl
  | @closeLiteral literal _ _ _ _ same =>
    obtain ⟨fence, start, segments, current⟩ := literal
    subst same
    cases fence <;> rw [scanLiteral.eq_def] <;> rfl

theorem scanLiteral_close (literal : OpenLiteral) (length breaks line : Nat) (rest : List Char) :
    scanLiteral (.text literal) [] length breaks line (literal.fence.quotes ++ rest) =
      .ok ⟨literal.flush.segments, length + literal.fence.quotes.length, breaks⟩ := by
  obtain ⟨fence, start, segments, current⟩ := literal
  cases fence <;> rw [scanLiteral.eq_def] <;> rfl

/-! ## Reading a body -/

def Place.spot : Place → Spot
  | .text literal => .text literal.fence
  | .splice _ => .splice

/-- The literal after more of its text has been shown. -/
def OpenLiteral.take (literal : OpenLiteral) (shown : List (Option Char)) : OpenLiteral :=
  shown.foldl (fun literal part => part.elim literal.flush literal.push) literal

def Place.take (place : Place) (shown : List (Option Char)) : Place :=
  match place with
  | .text literal => .text (literal.take shown)
  | .splice _ => place

theorem OpenLiteral.flush_fence (literal : OpenLiteral) : literal.flush.fence = literal.fence := by
  unfold flush
  split <;> rfl

theorem OpenLiteral.take_fence (literal : OpenLiteral) (shown : List (Option Char)) :
    (literal.take shown).fence = literal.fence := by
  induction shown generalizing literal with
  | nil => rfl
  | cons part shown ih =>
    rw [take, List.foldl_cons, ← take, ih]
    cases part with
    | none => exact literal.flush_fence
    | some c => rfl

theorem Place.exists_text {place : Place} {fence : Fence} (here : place.spot = .text fence) :
    ∃ literal, place = .text literal ∧ literal.fence = fence := by
  cases place with
  | text literal => exact ⟨literal, rfl, by simpa [Place.spot] using here⟩
  | splice _ => cases here

theorem Place.exists_splice {place : Place} (here : place.spot = .splice) :
    ∃ splice, place = .splice splice := by
  cases place with
  | text _ => cases here
  | splice splice => exact ⟨splice, rfl⟩

theorem LiteralBody.split_char {spot : Spot} {shown : List (Option Char)} {escaped counted : Nat}
    {c : Char} {rest : List Char} (further : LiteralBody spot shown escaped rest)
    (count : counted + escaped = (c :: rest).count '\n') :
    ∃ later, counted = (if c = '\n' then 1 else 0) + later ∧
      later + escaped = rest.count '\n' := by
  have behind := further.escaped_le
  refine ⟨rest.count '\n' - escaped, ?_, by omega⟩
  simp only [List.count_cons, beq_iff_eq] at count
  omega

/-- The line breaks of two bodies that count, one after the other. -/
theorem LiteralBody.split_counted {spot next : Spot} {shown more : List (Option Char)}
    {within escaped counted : Nat} {inner rest : List Char}
    (body : LiteralBody spot shown within inner) (further : LiteralBody next more escaped rest)
    (count : counted + (within + escaped) = inner.count '\n' + rest.count '\n') :
    ∃ first later, counted = first + later ∧ first + within = inner.count '\n' ∧
      later + escaped = rest.count '\n' := by
  have inside := body.escaped_le
  have behind := further.escaped_le
  exact ⟨inner.count '\n' - within, rest.count '\n' - escaped, by omega, by omega, by omega⟩

/-- The first quote of a literal between single quotes is not the first of three. -/
theorem LiteralBody.opens_single {shown : List (Option Char)} {escaped : Nat}
    {inner rest : List Char} (body : LiteralBody (.text .single) shown escaped inner)
    (apart : inner = [] → rest.head? ≠ some '"') : ¬ ['"', '"'] <+: inner ++ '"' :: rest := by
  cases body with
  | nil =>
    have no_quote := apart rfl
    rintro ⟨more, triple⟩
    rw [List.nil_append, List.cons_append, List.cons.injEq] at triple
    rw [← triple.2] at no_quote
    exact no_quote rfl
  | @char _ _ _ c more plain inside =>
    rintro ⟨behind, triple⟩
    obtain rfl : '"' = c := (List.cons.inj triple).1
    exact inside ⟨more ++ ['"'], rfl⟩
  | escape | splice =>
    rintro ⟨behind, triple⟩
    exact absurd (List.cons.inj triple).1 (by decide)

theorem LiteralReads.ok {line counted length breaks : Nat} {place next : Place}
    {outer around : List Splice} {text rest : List Char} {extent : LiteralExtent}
    (reads : LiteralReads line place outer text counted next around rest)
    (success : scanLiteral place outer length breaks line (text ++ rest) = .ok extent) :
    scanLiteral next around (length + text.length) (breaks + counted) (line + counted) rest =
      .ok extent :=
  (reads length breaks).symm.trans success

theorem LiteralReads.trans {line counted later : Nat} {place next last : Place}
    {outer around beyond : List Splice} {text more rest : List Char}
    (first : LiteralReads line place outer text counted next around (more ++ rest))
    (second : LiteralReads (line + counted) next around more later last beyond rest) :
    LiteralReads line place outer (text ++ more) (counted + later) last beyond rest := by
  intro length breaks
  rw [List.append_assoc, first, second, List.length_append, Nat.add_assoc, Nat.add_assoc,
    Nat.add_assoc]

/-- Through something that is opened and closed again, and on behind it. -/
theorem LiteralReads.through {line counted later : Nat} {place inside ending back last : Place}
    {outer around : List Splice} {opening inner closing after rest : List Char}
    (opened : LiteralReads line place outer opening 0 inside around
      (inner ++ (closing ++ (after ++ rest))))
    (read : LiteralReads line inside around inner counted ending around
      (closing ++ (after ++ rest)))
    (closed : LiteralReads (line + counted) ending around closing 0 back outer (after ++ rest))
    (onward : LiteralReads (line + counted) back outer after later last outer rest) :
    LiteralReads line place outer (opening ++ inner ++ closing ++ after) (counted + later) last
      outer rest := by
  have entered := opened.trans read
  rw [Nat.zero_add] at entered
  exact (entered.trans closed).trans onward

/-- A body is read up to what closes it. -/
theorem LiteralBody.reads {spot : Spot} {shown : List (Option Char)} {escaped counted : Nat}
    {inner : List Char} (body : LiteralBody spot shown escaped inner)
    (count : counted + escaped = inner.count '\n') (place : Place) (here : place.spot = spot)
    (outer : List Splice) (line : Nat) (rest : List Char) :
    LiteralReads line place outer inner counted (place.take shown) outer
      (spot.closing ++ rest) := by
  induction body generalizing place outer line rest counted with
  | nil spot =>
    have none : counted = 0 := by simpa using count
    subst none
    intro length breaks
    cases place <;> rfl
  | @char fence shown escaped c more plain inside one_line further ih =>
    obtain ⟨literal, rfl, rfl⟩ := Place.exists_text here
    have not_closed : ¬ literal.fence.quotes <+: c :: (more ++ (literal.fence.quotes ++ rest)) := by
      intro closed
      have whole : c :: (more ++ literal.fence.quotes) <+:
          c :: (more ++ (literal.fence.quotes ++ rest)) := ⟨rest, by simp⟩
      exact inside (List.prefix_of_prefix_length_le closed whole (by simp; omega))
    obtain ⟨later, rfl, fewer⟩ := further.split_char count
    exact (LiteralStep.char plain not_closed one_line).reads.trans
      (ih fewer (.text (literal.push c)) rfl outer _ rest)
  | @escape fence shown escaped c more no_splice further ih =>
    obtain ⟨literal, rfl, rfl⟩ := Place.exists_text here
    have fewer : counted + escaped = more.count '\n' := by
      simp only [List.count_cons, beq_iff_eq, Char.reduceEq, if_false] at count
      omega
    have onward := ih fewer (.text ((literal.push '\\').push c)) rfl outer line rest
    have whole := (LiteralStep.escape no_splice).reads.trans onward
    rwa [Nat.zero_add] at whole
  | @splice fence shown within escaped more after spliced further ih_inner ih =>
    obtain ⟨literal, rfl, rfl⟩ := Place.exists_text here
    obtain ⟨first, later, rfl, count_inner, count_after⟩ :=
      spliced.split_counted further (by simpa [List.count_cons] using count)
    have whole := (LiteralStep.openSplice literal outer _).reads.through
      (ih_inner count_inner _ rfl outer line _)
      (LiteralStep.closeSplice literal.flush outer _).reads
      (ih count_after _ (by rw [Place.spot, literal.flush_fence]) outer _ rest)
    rwa [List.append_assoc] at whole
  | @code escaped c more plain further ih =>
    obtain ⟨splice, rfl⟩ := Place.exists_splice here
    obtain ⟨later, rfl, fewer⟩ := further.split_char count
    exact (LiteralStep.code plain).reads.trans (ih fewer (.splice splice) rfl outer _ rest)
  | @group within escaped more after grouped further ih_inner ih =>
    obtain ⟨splice, rfl⟩ := Place.exists_splice here
    obtain ⟨first, later, rfl, count_inner, count_after⟩ :=
      grouped.split_counted further (by simpa [List.count_cons] using count)
    have whole := (LiteralStep.openGroup splice outer _).reads.through
      (ih_inner count_inner _ rfl outer line _) (LiteralStep.closeGroup splice outer _).reads
      (ih count_after _ rfl outer _ rest)
    rwa [List.append_assoc] at whole
  | @literal fence shown within escaped more after quoted apart further ih_inner ih =>
    obtain ⟨splice, rfl⟩ := Place.exists_splice here
    have no_break : fence.quotes.count '\n' = 0 := by cases fence <;> rfl
    obtain ⟨first, later, rfl, count_inner, count_after⟩ :=
      quoted.split_counted further (by simpa [no_break] using count)
    -- An empty literal inside the splice must not take a third quote from what follows it.
    have single : fence = .single →
        ¬ ['"', '"'] <+: more ++ (fence.quotes ++ (after ++ (')' :: rest))) := by
      rintro rfl
      apply quoted.opens_single
      intro empty
      cases after with
      | nil => simp
      | cons c after => exact apart rfl empty
    exact (LiteralStep.openLiteral single).reads.through
      (ih_inner count_inner _ rfl (splice :: outer) line _)
      (LiteralStep.closeLiteral (OpenLiteral.take_fence _ _)).reads
      (ih count_after _ rfl outer _ rest)

/-- A text that leads through a body to the end of a place. -/
def LeadsToEnd (place : Place) (text : List Char) : Prop :=
  ∃ shown escaped inner rest, LiteralBody place.spot shown escaped inner ∧
    text = inner ++ (place.spot.closing ++ rest)

theorem LiteralBody.shown_eq_nil {shown : List (Option Char)} {escaped : Nat} {text : List Char}
    (body : LiteralBody .splice shown escaped text) : shown = [] := by
  cases body <;> rfl

theorem exists_fence (rest : List Char) :
    ∃ fence more, '"' :: rest = Fence.quotes fence ++ more ∧
      (fence = .single → ¬ ['"', '"'] <+: more) := by
  by_cases triple : ['"', '"'] <+: rest
  · obtain ⟨more, rfl⟩ := triple
    exact ⟨.triple, more, rfl, nofun⟩
  · exact ⟨.single, rest, rfl, fun _ => triple⟩

section
variable {extent : LiteralExtent} {outer : List Splice} {length breaks line : Nat}
variable {c : Char} {rest : List Char}

/-- Behind a splice the reader is back in the text, so what holds of shorter texts is needed of the
splice and of what follows it. -/
theorem leadsToEnd_text {literal : OpenLiteral}
    (shorter : ∀ place outer length breaks line text, text.length ≤ rest.length →
      scanLiteral place outer length breaks line text = .ok extent → LeadsToEnd place text)
    (success : scanLiteral (.text literal) outer length breaks line (c :: rest) = .ok extent) :
    LeadsToEnd (.text literal) (c :: rest) := by
  by_cases closed : literal.fence.quotes <+: c :: rest
  · obtain ⟨behind, closes⟩ := closed
    exact ⟨[], 0, [], behind, .nil _, closes.symm⟩
  by_cases escape : c = '\\'
  · subst escape
    cases rest with
    | nil =>
      rw [scanLiteral.eq_def] at success
      cases success
    | cons d rest =>
      by_cases opens : d = '('
      · subst opens
        have opened := (LiteralStep.openSplice literal outer rest).reads.ok success
        obtain ⟨hidden, within, inner, more, spliced, rfl⟩ :=
          shorter _ _ _ _ _ _ (Nat.le_succ _) opened
        cases spliced.shown_eq_nil
        have read := (spliced.reads (Nat.sub_add_cancel spliced.escaped_le) _ rfl _ _ _).ok opened
        have closed := (LiteralStep.closeSplice literal.flush outer more).reads.ok read
        obtain ⟨shown, escaped, after, behind, further, rfl⟩ :=
          shorter _ _ _ _ _ more (by simp [Spot.closing]; omega) closed
        rw [Place.spot, literal.flush_fence] at further
        refine ⟨_, _, _, behind, .splice spliced further, ?_⟩
        simp [Place.spot, Spot.closing, literal.flush_fence]
      · have onward := (LiteralStep.escape opens).reads.ok success
        obtain ⟨shown, escaped, inner, behind, further, rfl⟩ :=
          shorter _ _ _ _ _ _ (Nat.le_succ _) onward
        exact ⟨_, _, _, behind, .escape opens further, rfl⟩
  · have one_line : literal.fence = .single → c ≠ '\n' := by
      rintro single rfl
      rw [scanLiteral.eq_def] at success
      simp [single] at success
    have onward := (LiteralStep.char escape closed one_line).reads.ok success
    obtain ⟨shown, escaped, inner, behind, further, rfl⟩ :=
      shorter _ _ _ _ _ _ (Nat.le_refl _) onward
    refine ⟨_, _, _, behind, .char escape (fun closes => closed ?_) one_line further, rfl⟩
    exact closes.trans ⟨behind, by simp [Place.spot, Spot.closing, OpenLiteral.push]⟩

theorem leadsToEnd_splice {splice : Splice}
    (shorter : ∀ place outer length breaks line text, text.length ≤ rest.length →
      scanLiteral place outer length breaks line text = .ok extent → LeadsToEnd place text)
    (success : scanLiteral (.splice splice) outer length breaks line (c :: rest) = .ok extent) :
    LeadsToEnd (.splice splice) (c :: rest) := by
  by_cases closes : c = ')'
  · subst closes
    exact ⟨[], 0, [], rest, .nil _, rfl⟩
  by_cases opens : c = '('
  · subst opens
    have opened := (LiteralStep.openGroup splice outer rest).reads.ok success
    obtain ⟨hidden, within, inner, more, grouped, rfl⟩ :=
      shorter _ _ _ _ _ _ (Nat.le_refl _) opened
    cases grouped.shown_eq_nil
    have read := (grouped.reads (Nat.sub_add_cancel grouped.escaped_le) _ rfl _ _ _).ok opened
    have closed := (LiteralStep.closeGroup splice outer more).reads.ok read
    obtain ⟨hidden, escaped, after, behind, further, rfl⟩ :=
      shorter _ _ _ _ _ more (by simp [Spot.closing]; omega) closed
    cases further.shown_eq_nil
    exact ⟨_, _, _, behind, .group grouped further, by simp [Place.spot, Spot.closing]⟩
  by_cases quote : c = '"'
  · subst quote
    obtain ⟨fence, more, text_eq, single⟩ := exists_fence rest
    have bound : fence.quotes.length + more.length = rest.length + 1 := by
      simpa using (congrArg List.length text_eq).symm
    have some_quote : 1 ≤ fence.quotes.length := by cases fence <;> decide
    rw [text_eq] at success ⊢
    have opened := (LiteralStep.openLiteral single).reads.ok success
    obtain ⟨shown, within, inner, behind, quoted, rfl⟩ :=
      shorter _ _ _ _ _ more (by omega) opened
    have read := (quoted.reads (Nat.sub_add_cancel quoted.escaped_le) _ rfl _ _ _).ok opened
    have closed := (LiteralStep.closeLiteral (OpenLiteral.take_fence _ _)).reads.ok read
    obtain ⟨hidden, escaped, after, left, further, rfl⟩ :=
      shorter _ _ _ _ _ behind (by simp at bound; omega) closed
    cases further.shown_eq_nil
    refine ⟨_, _, _, left, .literal quoted ?_ further, by simp [Place.spot, Spot.closing]⟩
    rintro rfl rfl at_head
    obtain ⟨tail, rfl⟩ := List.head?_eq_some_iff.mp at_head
    exact single rfl ⟨_, rfl⟩
  · have plain : c ∉ ['"', '(', ')'] := by simp [quote, opens, closes]
    have onward := (LiteralStep.code plain).reads.ok success
    obtain ⟨hidden, escaped, inner, behind, further, rfl⟩ :=
      shorter _ _ _ _ _ _ (Nat.le_refl _) onward
    cases further.shown_eq_nil
    exact ⟨_, _, _, behind, .code plain further, rfl⟩

end

theorem leadsToEnd_of_scanLiteral {place : Place} {outer : List Splice} {length breaks line : Nat}
    {text : List Char} {extent : LiteralExtent}
    (success : scanLiteral place outer length breaks line text = .ok extent) :
    LeadsToEnd place text := by
  induction length_eq : text.length using Nat.strongRecOn
    generalizing place outer length breaks line text with
  | _ size ih =>
    cases text with
    | nil =>
      rw [scanLiteral.eq_def] at success
      cases place <;> cases success
    | cons c rest =>
      have shorter : ∀ place outer length breaks line text, text.length ≤ rest.length →
          scanLiteral place outer length breaks line text = .ok extent → LeadsToEnd place text := by
        intro place outer length breaks line text bound found
        refine ih text.length ?_ found rfl
        rw [← length_eq, List.length_cons]
        exact Nat.lt_succ_of_le bound
      cases place with
      | text literal => exact leadsToEnd_text shorter success
      | splice splice => exact leadsToEnd_splice shorter success

/-! ## Whole literals -/

/-- The stretches between the gaps of what a literal shows, `before` standing in front of it. Empty
stretches are left out. -/
def stretches (before : List Char) : List (Option Char) → List String
  | [] => if before = [] then [] else [String.ofList before]
  | some c :: shown => stretches (before ++ [c]) shown
  | none :: shown => (if before = [] then [] else [String.ofList before]) ++ stretches [] shown

theorem OpenLiteral.flush_take_segments (literal : OpenLiteral) (shown : List (Option Char)) :
    (literal.take shown).flush.segments =
      literal.segments ++ stretches literal.current.reverse shown := by
  have flushed : ∀ literal : OpenLiteral, literal.flush.segments = literal.segments ++
      (if literal.current.reverse = [] then [] else [String.ofList literal.current.reverse]) ∧
        literal.flush.current = [] := by
    intro literal
    unfold flush
    cases current : literal.current <;> simp [current]
  induction shown generalizing literal with
  | nil => exact (flushed literal).1
  | cons part shown ih =>
    cases part with
    | some c =>
      rw [take, List.foldl_cons, ← take, ih]
      simp [push, stretches]
    | none =>
      rw [take, List.foldl_cons, ← take, ih]
      simp only [Option.elim, flushed literal, List.append_assoc, List.reverse_nil, stretches]

theorem literalExtent_open {fence : Fence} {more : List Char}
    (single : fence = .single → ¬ ['"', '"'] <+: more) (line : Nat) :
    literalExtent line (fence.quotes.tail ++ more) =
      scanLiteral (.text ⟨fence, line, [], []⟩) [] fence.quotes.tail.length 0 line more := by
  cases fence with
  | single =>
    have alone := single rfl
    rw [literalExtent.eq_def]
    simp only [Fence.quotes, List.tail_cons, List.nil_append]
    split
    · simp_all
    · rfl
  | triple => rfl

theorem literalExtent_complete {fence : Fence} {shown : List (Option Char)}
    {escaped counted : Nat} {inner after : List Char}
    (body : LiteralBody (.text fence) shown escaped inner)
    (count : counted + escaped = inner.count '\n')
    (apart : fence = .single → inner = [] → after.head? ≠ some '"') (line : Nat) :
    literalExtent line (fence.quotes.tail ++ (inner ++ fence.quotes) ++ after) =
      .ok ⟨stretches [] shown, (fence.quotes.tail ++ (inner ++ fence.quotes)).length, counted⟩ := by
  have single : fence = .single → ¬ ['"', '"'] <+: inner ++ (fence.quotes ++ after) := by
    rintro rfl
    exact body.opens_single (apart rfl)
  have read := body.reads count (.text ⟨fence, line, [], []⟩) rfl [] line after
    fence.quotes.tail.length 0
  have close := scanLiteral_close (OpenLiteral.take ⟨fence, line, [], []⟩ shown)
    (fence.quotes.tail.length + inner.length) (0 + counted) (line + counted) after
  rw [OpenLiteral.take_fence, OpenLiteral.flush_take_segments] at close
  rw [List.append_assoc, List.append_assoc, literalExtent_open single, List.length_append,
    List.length_append, ← Nat.add_assoc, ← Nat.zero_add counted]
  exact read.trans close

theorem literalExtent_sound {line : Nat} {rest : List Char} {extent : LiteralExtent}
    (success : literalExtent line rest = .ok extent) :
    ∃ fence shown escaped inner after, LiteralBody (.text fence) shown escaped inner ∧
      rest = fence.quotes.tail ++ (inner ++ fence.quotes) ++ after ∧
      extent = ⟨stretches [] shown, (fence.quotes.tail ++ (inner ++ fence.quotes)).length,
        inner.count '\n' - escaped⟩ := by
  obtain ⟨fence, more, text_eq, single⟩ := exists_fence rest
  have rest_eq : rest = fence.quotes.tail ++ more := by
    cases fence <;> simpa [Fence.quotes] using text_eq
  rw [rest_eq, literalExtent_open single] at success
  obtain ⟨shown, escaped, inner, after, body, more_eq⟩ := leadsToEnd_of_scanLiteral success
  change LiteralBody (.text fence) shown escaped inner at body
  change more = inner ++ (fence.quotes ++ after) at more_eq
  have apart : fence = .single → inner = [] → after.head? ≠ some '"' := by
    rintro rfl rfl at_head
    obtain ⟨tail, rfl⟩ := List.head?_eq_some_iff.mp at_head
    exact single rfl ⟨tail, more_eq.symm⟩
  have read := literalExtent_complete body (Nat.sub_add_cancel body.escaped_le) apart line
  rw [List.append_assoc, List.append_assoc, ← more_eq, literalExtent_open single] at read
  exact ⟨fence, shown, escaped, inner, after, body, by simp [rest_eq, more_eq],
    Except.ok.inj (success.symm.trans read)⟩

end ApiHandbook.Source
