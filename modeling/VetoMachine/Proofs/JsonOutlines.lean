import VetoMachine.Json.Reader
import VetoMachine.Proofs.JsonTokens

/-!
# Outlines and the grammar of JSON

Every text of a tree has an outline of that tree (`Tree.IsText.outline_eq`): the same arrays and objects, with a text
that spells each string.  So what a reader makes of the text it makes of the outline, and a value that nobody wants
is passed over (`Tree.HasOutline.skip`).
-/

namespace VetoMachine.Json

mutual

/-- An outline shows a tree. -/
def Tree.HasOutline : Tree → Outline → Prop
  | .null, o => o = .scalar .null
  | .bool b, o => o = .scalar (.bool b)
  | .number n, o => o = .scalar (.number n.text)
  | .string s, o => ∃ text : StringText, text.Spells s ∧ o = .scalar (.string text)
  | .array items, o => ∃ body, ItemsHaveOutline items body ∧ o = .list body
  | .object members, o => ∃ body, MembersHaveOutline members body ∧ o = .object body

def ItemsHaveOutline : List Tree → Items → Prop
  | [], body => body = .closed
  | x :: rest, body => ∃ value more, x.HasOutline value ∧ ItemsHaveOutline rest more ∧ body = .item value more

def MembersHaveOutline : List (String × Tree) → Members → Prop
  | [], body => body = .closed
  | (k, x) :: rest, body => ∃ (key : StringText) (value : Outline) (more : Members),
      key.Spells k ∧ x.HasOutline value ∧ MembersHaveOutline rest more ∧ body = .member key value more

end

mutual

/-- The tokens that an outline without faults comes from. -/
def Outline.tokens : Outline → List Token
  | .scalar lexeme => [.scalar lexeme]
  | .list body => .openList :: (body.tokens ++ [.closeList])
  | .object body => .openObject :: (body.tokens ++ [.closeObject])
  | .absent | .stray => []

def Items.tokens : Items → List Token
  | .item value .closed => value.tokens
  | .item value rest => value.tokens ++ .comma :: rest.tokens
  | _ => []

def Members.tokens : Members → List Token
  | .member key value .closed => .scalar (.string key) :: .colon :: value.tokens
  | .member key value rest => .scalar (.string key) :: .colon :: (value.tokens ++ .comma :: rest.tokens)
  | _ => []

end

/-! ### From texts to tokens -/

/-- Blanks around a text change nothing in its outline. -/
private theorem Padded.exists_cuts {α : Type} {P : List Char → Prop} {Q : α → Prop} {tokens : α → List Token}
    {cs rest : List Char} (hcs : Padded P cs) (hrest : Delimited rest)
    (h : ∀ {text rest}, P text → Delimited rest → ∃ o, Q o ∧ Token.Cuts text rest (tokens o)) :
    ∃ o, Q o ∧ Token.Cuts cs rest (tokens o) := by
  obtain ⟨before, text, after, hbefore, htext, hafter, rfl⟩ := hcs
  obtain ⟨o, ho, hcuts⟩ := h htext (.blanks hafter hrest)
  exact ⟨o, ho, .padded hbefore hcuts hafter⟩

private theorem Padded.exists_cuts_string {k : String} {key rest : List Char} (hkey : Padded (WritesString k) key)
    (hrest : Delimited rest) :
    ∃ text : StringText, text.Spells k ∧ Token.Cuts key rest [.scalar (.string text)] :=
  hkey.exists_cuts hrest fun h _ =>
    let ⟨text, htext, hcuts⟩ := h.cuts
    ⟨text, htext, hcuts _⟩

mutual

/-- A text of a tree is cut into the tokens of an outline of the tree. -/
theorem Tree.Written.exists_cuts : (t : Tree) → ∀ {cs rest : List Char}, t.Written cs → Delimited rest →
    ∃ o, t.HasOutline o ∧ Token.Cuts cs rest o.tokens
  | .null, cs, rest, hcs, hrest => ⟨_, rfl, by rw [hcs]; exact .token rfl rfl⟩
  | .bool true, cs, rest, hcs, hrest => ⟨_, rfl, by rw [hcs]; exact .token rfl rfl⟩
  | .bool false, cs, rest, hcs, hrest => ⟨_, rfl, by rw [hcs]; exact .token rfl rfl⟩
  | .number n, cs, rest, hcs, hrest => ⟨_, rfl, by rw [hcs]; exact n.cuts hrest⟩
  | .string s, cs, rest, hcs, hrest =>
    let ⟨text, htext, hcuts⟩ := WritesString.cuts hcs
    ⟨_, ⟨text, htext, rfl⟩, hcuts rest⟩
  | .array items, cs, rest, hcs, hrest => by
    obtain ⟨body, hbody, rfl⟩ := hcs
    obtain ⟨o, ho, hcuts⟩ := ItemsWritten.exists_cuts items hbody (.closeList rest)
    have hopen : Token.Cuts ['['] (body ++ [']'] ++ rest) [.openList] := .token rfl rfl
    have hclose : Token.Cuts [']'] rest [.closeList] := .token rfl rfl
    exact ⟨.list o, ⟨o, ho, rfl⟩, hopen.append (hcuts.append hclose)⟩
  | .object members, cs, rest, hcs, hrest => by
    obtain ⟨body, hbody, rfl⟩ := hcs
    obtain ⟨o, ho, hcuts⟩ := MembersWritten.exists_cuts members hbody (.closeObject rest)
    have hopen : Token.Cuts ['{'] (body ++ ['}'] ++ rest) [.openObject] := .token rfl rfl
    have hclose : Token.Cuts ['}'] rest [.closeObject] := .token rfl rfl
    exact ⟨.object o, ⟨o, ho, rfl⟩, hopen.append (hcuts.append hclose)⟩

theorem ItemsWritten.exists_cuts : (items : List Tree) → ∀ {cs rest : List Char}, ItemsWritten items cs →
    Delimited rest → ∃ body, ItemsHaveOutline items body ∧ Token.Cuts cs rest body.tokens
  | [], cs, rest, hcs, hrest => ⟨.closed, rfl, .blanks hcs rest⟩
  | [x], cs, rest, hcs, hrest => by
    obtain ⟨value, hvalue, hcuts⟩ := Padded.exists_cuts hcs hrest (Tree.Written.exists_cuts x)
    exact ⟨.item value .closed, ⟨value, .closed, hvalue, rfl, rfl⟩, hcuts⟩
  | x :: y :: items, cs, rest, hcs, hrest => by
    obtain ⟨first, more, hfirst, hmore, rfl⟩ := hcs
    obtain ⟨value, hvalue, hcuts⟩ := Padded.exists_cuts hfirst (.comma (more ++ rest)) (Tree.Written.exists_cuts x)
    obtain ⟨body, hbody, hcuts'⟩ := ItemsWritten.exists_cuts (y :: items) hmore hrest
    have hcomma : Token.Cuts [','] (more ++ rest) [.comma] := .token rfl rfl
    refine ⟨.item value body, ⟨value, body, hvalue, hbody, rfl⟩, ?_⟩
    have htokens : (Items.item value body).tokens = value.tokens ++ ([.comma] ++ body.tokens) := by
      obtain ⟨_, _, -, -, rfl⟩ := hbody
      rfl
    rw [htokens]
    exact hcuts.append (hcomma.append hcuts')

theorem MembersWritten.exists_cuts : (members : List (String × Tree)) → ∀ {cs rest : List Char},
    MembersWritten members cs → Delimited rest →
    ∃ body, MembersHaveOutline members body ∧ Token.Cuts cs rest body.tokens
  | [], cs, rest, hcs, hrest => ⟨.closed, rfl, .blanks hcs rest⟩
  | [(k, x)], cs, rest, hcs, hrest => by
    obtain ⟨key, value, hkey, hvalue, rfl⟩ := hcs
    obtain ⟨text, htext, hcuts⟩ := hkey.exists_cuts_string (.colon (value ++ rest))
    obtain ⟨o, ho, hcuts'⟩ := hvalue.exists_cuts hrest (Tree.Written.exists_cuts x)
    have hcolon : Token.Cuts [':'] (value ++ rest) [.colon] := .token rfl rfl
    exact ⟨.member text o .closed, ⟨text, o, .closed, htext, ho, rfl, rfl⟩, hcuts.append (hcolon.append hcuts')⟩
  | (k, x) :: m :: members, cs, rest, hcs, hrest => by
    obtain ⟨key, value, more, hkey, hvalue, hmore, rfl⟩ := hcs
    obtain ⟨text, htext, hcuts⟩ := hkey.exists_cuts_string (.colon (value ++ ',' :: more ++ rest))
    obtain ⟨o, ho, hcuts'⟩ := hvalue.exists_cuts (.comma (more ++ rest)) (Tree.Written.exists_cuts x)
    obtain ⟨body, hbody, hcuts''⟩ := MembersWritten.exists_cuts (m :: members) hmore hrest
    have hcolon : Token.Cuts [':'] (value ++ ',' :: more ++ rest) [.colon] := .token rfl rfl
    have hcomma : Token.Cuts [','] (more ++ rest) [.comma] := .token rfl rfl
    refine ⟨.member text o body, ⟨text, o, body, htext, ho, hbody, rfl⟩, ?_⟩
    have htokens : (Members.member text o body).tokens =
        [.scalar (.string text)] ++ ([.colon] ++ (o.tokens ++ ([.comma] ++ body.tokens))) := by
      obtain ⟨_, _, _, -, -, -, rfl⟩ := hbody
      rfl
    rw [htokens]
    exact hcuts.append (hcolon.append (hcuts'.append (hcomma.append hcuts'')))

end

/-! ### From tokens to outlines -/

private theorem Tree.HasOutline.tokens_eq_cons {t : Tree} {o : Outline} (h : t.HasOutline o) :
    ∃ token ts, o.tokens = token :: ts ∧ token ≠ .closeList := by
  cases t with
  | null | bool | number =>
    obtain rfl := h
    exact ⟨_, _, rfl, nofun⟩
  | string | array | object =>
    obtain ⟨_, -, rfl⟩ := h
    exact ⟨_, _, rfl, nofun⟩

private theorem ItemsHaveOutline.tokens_eq_cons {x : Tree} {items : List Tree} {body : Items}
    (h : ItemsHaveOutline (x :: items) body) : ∃ token ts, body.tokens = token :: ts ∧ token ≠ .closeList := by
  obtain ⟨value, more, hvalue, hmore, rfl⟩ := h
  obtain ⟨token, ts, htokens, htoken⟩ := hvalue.tokens_eq_cons
  cases items with
  | nil => obtain rfl := hmore; exact ⟨token, ts, htokens, htoken⟩
  | cons y items =>
    obtain ⟨_, _, -, -, rfl⟩ := hmore
    exact ⟨token, _, congrArg (· ++ _) htokens, htoken⟩

private theorem MembersHaveOutline.tokens_eq_cons {m : String × Tree} {members : List (String × Tree)}
    {body : Members} (h : MembersHaveOutline (m :: members) body) :
    ∃ key ts, body.tokens = .scalar (.string key) :: ts := by
  obtain ⟨key, value, more, -, -, hmore, rfl⟩ := h
  cases members with
  | nil => obtain rfl := hmore; exact ⟨_, _, rfl⟩
  | cons n members => obtain ⟨_, _, _, -, -, -, rfl⟩ := hmore; exact ⟨_, _, rfl⟩

private theorem Outline.ofTokens_openList {t : Token} (ht : t ≠ .closeList) (fuel : Nat) (ts : List Token) :
    Outline.ofTokens (fuel + 1) (.openList :: t :: ts) =
      (.list (Items.ofTokens fuel (t :: ts)).1, (Items.ofTokens fuel (t :: ts)).2) := by
  cases t <;> first | rfl | exact absurd rfl ht

private theorem Items.ofTokens_comma {t : Token} (ht : t ≠ .closeList) {fuel : Nat} {ts₀ ts : List Token}
    {value : Outline} (hvalue : Outline.ofTokens fuel ts₀ = (value, .comma :: t :: ts)) :
    Items.ofTokens (fuel + 1) ts₀ =
      (.item value (Items.ofTokens fuel (t :: ts)).1, (Items.ofTokens fuel (t :: ts)).2) := by
  rw [Items.ofTokens, hvalue]
  cases t <;> first | rfl | exact absurd rfl ht

mutual

/-- An outline without faults is the outline of its tokens. -/
theorem Outline.ofTokens_tokens : (t : Tree) → ∀ {o : Outline} {fuel : Nat} (ts : List Token), t.HasOutline o →
    o.tokens.length ≤ fuel → Outline.ofTokens fuel (o.tokens ++ ts) = (o, ts)
  | .null, o, fuel + 1, ts, ho, _ => by rw [ho]; rfl
  | .bool b, o, fuel + 1, ts, ho, _ => by rw [ho]; rfl
  | .number n, o, fuel + 1, ts, ho, _ => by rw [ho]; rfl
  | .string s, o, fuel + 1, ts, ho, _ => by obtain ⟨text, -, rfl⟩ := ho; rfl
  | .array [], o, fuel + 1, ts, ho, _ => by obtain ⟨_, rfl, rfl⟩ := ho; rfl
  | .array (x :: items), o, fuel + 1, ts, ho, hfuel => by
    obtain ⟨body, hbody, rfl⟩ := ho
    have hlength : body.tokens.length < fuel := by
      simp [Outline.tokens] at hfuel; omega
    have hrest := Items.ofTokens_tokens x items ts hbody hlength
    obtain ⟨token, ts', htokens, htoken⟩ := hbody.tokens_eq_cons
    rw [htokens, List.cons_append] at hrest
    rw [Outline.tokens, List.cons_append, List.append_assoc, List.singleton_append, htokens, List.cons_append,
      Outline.ofTokens_openList htoken, hrest]
  | .object [], o, fuel + 1, ts, ho, _ => by obtain ⟨_, rfl, rfl⟩ := ho; rfl
  | .object (m :: members), o, fuel + 1, ts, ho, hfuel => by
    obtain ⟨body, hbody, rfl⟩ := ho
    have hlength : body.tokens.length < fuel := by
      simp [Outline.tokens] at hfuel; omega
    have hrest := Members.ofTokens_tokens m members ts hbody hlength
    obtain ⟨key, ts', htokens⟩ := hbody.tokens_eq_cons
    rw [htokens, List.cons_append] at hrest
    rw [Outline.tokens, List.cons_append, List.append_assoc, List.singleton_append, htokens, List.cons_append,
      Outline.ofTokens, hrest]
    · nofun
    · nofun

theorem Items.ofTokens_tokens : (x : Tree) → (items : List Tree) → ∀ {body : Items} {fuel : Nat} (ts : List Token),
    ItemsHaveOutline (x :: items) body → body.tokens.length < fuel →
    Items.ofTokens fuel (body.tokens ++ .closeList :: ts) = (body, ts)
  | x, [], body, fuel + 1, ts, hbody, hfuel => by
    obtain ⟨value, _, hvalue, rfl, rfl⟩ := hbody
    have hx := Outline.ofTokens_tokens x (.closeList :: ts) hvalue (Nat.le_of_lt_succ hfuel)
    rw [Items.tokens, Items.ofTokens, hx]
  | x, y :: items, body, fuel + 1, ts, hbody, hfuel => by
    obtain ⟨value, more, hvalue, hmore, rfl⟩ := hbody
    have htokens : (Items.item value more).tokens = value.tokens ++ .comma :: more.tokens := by
      obtain ⟨_, _, -, -, rfl⟩ := hmore
      rfl
    rw [htokens, List.length_append, List.length_cons] at hfuel
    have hx := Outline.ofTokens_tokens x (.comma :: (more.tokens ++ .closeList :: ts)) hvalue
      (show value.tokens.length ≤ fuel by omega)
    have hrest := Items.ofTokens_tokens y items ts hmore (show more.tokens.length < fuel by omega)
    obtain ⟨token, ts', hfirst, htoken⟩ := hmore.tokens_eq_cons
    rw [hfirst, List.cons_append] at hx hrest
    rw [htokens, List.append_assoc, List.cons_append, hfirst, List.cons_append, Items.ofTokens_comma htoken hx, hrest]

theorem Members.ofTokens_tokens : (m : String × Tree) → (members : List (String × Tree)) →
    ∀ {body : Members} {fuel : Nat} (ts : List Token), MembersHaveOutline (m :: members) body →
    body.tokens.length < fuel → Members.ofTokens fuel (body.tokens ++ .closeObject :: ts) = (body, ts)
  | (k, x), [], body, fuel + 1, ts, hbody, hfuel => by
    obtain ⟨key, value, _, -, hvalue, rfl, rfl⟩ := hbody
    simp only [Members.tokens, List.length_cons] at hfuel
    have hx := Outline.ofTokens_tokens x (.closeObject :: ts) hvalue
      (show value.tokens.length ≤ fuel by omega)
    rw [Members.tokens, List.cons_append, List.cons_append, Members.ofTokens, hx]
  | (k, x), m :: members, body, fuel + 1, ts, hbody, hfuel => by
    obtain ⟨key, value, more, -, hvalue, hmore, rfl⟩ := hbody
    have htokens : (Members.member key value more).tokens =
        .scalar (.string key) :: .colon :: (value.tokens ++ .comma :: more.tokens) := by
      obtain ⟨_, _, _, -, -, -, rfl⟩ := hmore
      rfl
    rw [htokens] at hfuel
    simp only [List.length_append, List.length_cons] at hfuel
    have hx := Outline.ofTokens_tokens x (.comma :: (more.tokens ++ .closeObject :: ts)) hvalue
      (show value.tokens.length ≤ fuel by omega)
    have hrest := Members.ofTokens_tokens m members ts hmore (show more.tokens.length < fuel by omega)
    obtain ⟨l, ts', hfirst⟩ := hmore.tokens_eq_cons
    rw [hfirst, List.cons_append] at hx hrest
    rw [htokens, List.cons_append, List.cons_append, List.append_assoc, List.cons_append, hfirst, List.cons_append,
      Members.ofTokens, hx]
    simp only [hrest]

end

/-- Every text of a tree has an outline of the tree. -/
theorem Tree.IsText.outline_eq {t : Tree} {text : String} (h : t.IsText text) :
    ∃ o, t.HasOutline o ∧ outline text = (o, []) := by
  obtain ⟨o, ho, hcuts⟩ := Padded.exists_cuts h .nil (Tree.Written.exists_cuts t)
  have houtline : Outline.ofTokens (2 * o.tokens.length + 2) (o.tokens ++ []) = (o, []) :=
    Outline.ofTokens_tokens t [] ho (by omega)
  rw [List.append_nil] at houtline
  exact ⟨o, ho, by rw [outline, hcuts.scan_eq]; exact houtline⟩

/-- What a reader makes of a text it makes of its outline. -/
theorem Tree.IsText.exists_outline {t : Tree} {text : String} (h : t.IsText text) :
    ∃ o, t.HasOutline o ∧ ∀ {α : Type} (read : Reader α) (room : Nat), read.text room text = read room o := by
  obtain ⟨o, ho, houtline⟩ := h.outline_eq
  exact ⟨o, ho, fun read room => by simp [Reader.text, houtline]⟩

mutual

/-- What is well formed is passed over, whatever its depth. -/
theorem Tree.HasOutline.skip : (t : Tree) → ∀ {o : Outline}, t.HasOutline o → o.skip = .ok ()
  | .null, o, ho | .bool b, o, ho => by rw [ho]; rfl
  | .number n, o, ho => by rw [ho]; exact n.check_text
  | .string s, o, ho => by obtain ⟨text, htext, rfl⟩ := ho; exact htext.check
  | .array items, o, ho => by obtain ⟨body, hbody, rfl⟩ := ho; exact ItemsHaveOutline.skip items hbody
  | .object members, o, ho => by obtain ⟨body, hbody, rfl⟩ := ho; exact MembersHaveOutline.skip members hbody

theorem ItemsHaveOutline.skip : (items : List Tree) → ∀ {body : Items}, ItemsHaveOutline items body →
    body.skip = .ok ()
  | [], body, hbody => by rw [hbody]; rfl
  | x :: items, body, hbody => by
    obtain ⟨value, more, hvalue, hmore, rfl⟩ := hbody
    rw [Items.skip, Tree.HasOutline.skip x hvalue]
    exact ItemsHaveOutline.skip items hmore

theorem MembersHaveOutline.skip : (members : List (String × Tree)) → ∀ {body : Members},
    MembersHaveOutline members body → body.skip = .ok ()
  | [], body, hbody => by rw [hbody]; rfl
  | (k, x) :: members, body, hbody => by
    obtain ⟨key, value, more, hkey, hvalue, hmore, rfl⟩ := hbody
    rw [Members.skip, hkey.check]
    simp only [bind, Except.bind, Tree.HasOutline.skip x hvalue]
    exact MembersHaveOutline.skip members hmore

end

end VetoMachine.Json
