import SliceControl.Json.Reader
import SliceControl.Json.Writer
import SliceControl.Proofs.Json.Shape
import SliceControl.Proofs.Json.Tokens

/-!
# Values read back

The builder keeps the open containers on a stack, and whatever it builds is tidy, since it sorts the
members of an object and refuses to open too many containers. The other way around, the tokens of a
tidy value build this value on top of any stack that leaves enough room.

So a tidy value without reals reads back from its compact text.
-/

namespace SliceControl.Json

variable {reals : Bool} {depth : Nat}

/-! ## What is read is tidy -/

/-- The containers on a stack hold tidy values, each of the depth that is left to it. -/
def TidyStack : List Frame → Prop
  | [] => True
  | .items before :: stack =>
    stack.length < maxDepth ∧ TidyStack stack ∧
      ∀ item ∈ before, item.Tidy true (maxDepth - stack.length - 1)
  | .members before _ :: stack =>
    stack.length < maxDepth ∧ TidyStack stack ∧
      ∀ entry ∈ before, entry.2.Tidy true (maxDepth - stack.length - 1)

/-- The containers that are open and what they hold are tidy. -/
def Build.IsTidy : Build → Prop
  | .expected stack => TidyStack stack
  | .firstItem stack | .firstKey stack => TidyStack stack ∧ stack.length < maxDepth
  | .nextKey before stack | .colon before _ stack =>
    TidyStack stack ∧ stack.length < maxDepth ∧
      ∀ entry ∈ before, entry.2.Tidy true (maxDepth - stack.length - 1)
  | .built value stack => TidyStack stack ∧ value.Tidy true (maxDepth - stack.length)

theorem Build.IsTidy.start {stack : List Frame} (h : TidyStack stack) {token : Token}
    {next : Build} (hnext : Build.start stack token = some next) : next.IsTidy := by
  cases token with
  | openArray =>
    unfold Build.start at hnext
    split_ifs at hnext with hroom
    cases hnext
    exact ⟨h, hroom⟩
  | openObject =>
    unfold Build.start at hnext
    split_ifs at hnext with hroom
    cases hnext
    exact ⟨h, hroom⟩
  | null | bool value | whole value | real value | string value =>
    cases hnext
    exact ⟨h, by cases maxDepth - stack.length <;> trivial⟩
  | _ => cases hnext

theorem Build.IsTidy.step {build next : Build} (h : build.IsTidy) {token : Token}
    (hnext : build.step token = some next) : next.IsTidy := by
  unfold Build.step at hnext
  split at hnext
  case h_1 => exact .start h hnext
  case h_2 stack =>
    cases hnext
    exact ⟨h.1, .array (Nat.sub_pos_of_lt h.2) (by simp)⟩
  case h_3 _ stack _ =>
    have hopened : TidyStack (.items [] :: stack) := ⟨h.2, h.1, by simp⟩
    exact .start hopened hnext
  case h_4 stack =>
    cases hnext
    have hempty : (Json.ofMembers []).Tidy true (maxDepth - stack.length) :=
      .ofMembers (Nat.sub_pos_of_lt h.2) (by simp)
    exact ⟨h.1, hempty⟩
  case h_5 stack key =>
    cases hnext
    exact ⟨h.1, h.2, by simp⟩
  case h_6 before stack key =>
    cases hnext
    exact h
  case h_7 before key stack =>
    cases hnext
    exact ⟨h.2.1, h.1, h.2.2⟩
  case h_8 value before stack =>
    cases hnext
    obtain ⟨⟨hroom, hstack, hbefore⟩, hvalue⟩ := h
    exact ⟨hroom, hstack, List.forall_mem_cons.mpr ⟨hvalue, hbefore⟩⟩
  case h_9 value before stack =>
    cases hnext
    obtain ⟨⟨hroom, hstack, hbefore⟩, hvalue⟩ := h
    refine ⟨hstack, .array (Nat.sub_pos_of_lt hroom) fun item hitem ↦ ?_⟩
    exact List.forall_mem_cons.mpr ⟨hvalue, hbefore⟩ item (List.mem_reverse.mp hitem)
  case h_10 value before key stack =>
    cases hnext
    obtain ⟨⟨hroom, hstack, hbefore⟩, hvalue⟩ := h
    have hall : ∀ entry ∈ (key, value) :: before,
        entry.2.Tidy true (maxDepth - stack.length - 1) :=
      List.forall_mem_cons.mpr ⟨hvalue, hbefore⟩
    exact ⟨hstack, hroom, hall⟩
  case h_11 value before key stack =>
    cases hnext
    obtain ⟨⟨hroom, hstack, hbefore⟩, hvalue⟩ := h
    have hall : ∀ entry ∈ (key, value) :: before,
        entry.2.Tidy true (maxDepth - stack.length - 1) :=
      List.forall_mem_cons.mpr ⟨hvalue, hbefore⟩
    refine ⟨hstack, .ofMembers (Nat.sub_pos_of_lt hroom) fun entry hentry ↦ ?_⟩
    exact hall entry (List.mem_reverse.mp hentry)
  case h_12 => cases hnext

/-- Whatever is read is tidy. -/
theorem tidy_of_ofTokens? {tokens : List Token} {value : Json} (h : ofTokens? tokens = some value) :
    value.Tidy true maxDepth := by
  have hrun {build last : Build} (hstart : build.IsTidy)
      (hlast : tokens.foldlM Build.step build = some last) : last.IsTidy := by
    clear h
    induction tokens generalizing build with
    | nil =>
      cases hlast
      exact hstart
    | cons token rest ih =>
      rw [List.foldlM_cons] at hlast
      obtain ⟨next, hnext, hrest⟩ := Option.bind_eq_some_iff.mp hlast
      exact ih (hstart.step hnext) hrest
  unfold ofTokens? at h
  split at h
  · rename_i built hbuilt
    cases h
    have hbegin : (Build.expected []).IsTidy := trivial
    exact (hrun hbegin hbuilt).2
  · cases h

theorem tidy_of_parse? {text : String} {value : Json} (h : parse? text = some value) :
    value.Tidy true maxDepth := by
  obtain ⟨tokens, -, hvalue⟩ := Option.bind_eq_some_iff.mp h
  exact tidy_of_ofTokens? hvalue

/-! ## What is tidy is read -/

/-- The tokens of a value build it on top of any stack of this height. -/
def Builds (height : Nat) (value : Json) : Prop :=
  ∀ (stack : List Frame) (rest : List Token), stack.length = height →
    (tokensOnto value rest).foldlM Build.step (.expected stack) =
      rest.foldlM Build.step (.built value stack)

/-- No value begins with a closing bracket, so a first item is read like any other. -/
theorem foldlM_step_firstItem (value : Json) (rest : List Token) (stack : List Frame) :
    (tokensOnto value rest).foldlM Build.step (.firstItem stack) =
      (tokensOnto value rest).foldlM Build.step (.expected (.items [] :: stack)) := by
  cases value with
  | array items => cases items <;> rfl
  | object members => cases members <;> rfl
  | _ => rfl

theorem foldlM_step_itemsOnto {items : List Json} {stack : List Frame}
    (h : ∀ item ∈ items, Builds (stack.length + 1) item) (before : List Json) (value : Json)
    (rest : List Token) :
    (itemsOnto items rest).foldlM Build.step (.built value (.items before :: stack)) =
      rest.foldlM Build.step (.built (.array ((value :: before).reverse ++ items)) stack) := by
  induction items generalizing before value with
  | nil =>
    rw [List.append_nil]
    rfl
  | cons item items ih =>
    have hitem := h item List.mem_cons_self (.items (value :: before) :: stack)
      (itemsOnto items rest) rfl
    have hitems := ih (fun other hmem ↦ h other (List.mem_cons_of_mem _ hmem)) (value :: before)
      item
    calc (itemsOnto (item :: items) rest).foldlM Build.step (.built value (.items before :: stack))
        = (tokensOnto item (itemsOnto items rest)).foldlM Build.step
            (.expected (.items (value :: before) :: stack)) := rfl
      _ = (itemsOnto items rest).foldlM Build.step
            (.built item (.items (value :: before) :: stack)) := hitem
      _ = rest.foldlM Build.step
            (.built (.array ((item :: value :: before).reverse ++ items)) stack) := hitems
      _ = _ := by simp

theorem foldlM_step_membersOnto {members : List (String × Json)} {stack : List Frame}
    (h : ∀ entry ∈ members, Builds (stack.length + 1) entry.2) (before : List (String × Json))
    (key : String) (value : Json) (rest : List Token) :
    (membersOnto members rest).foldlM Build.step (.built value (.members before key :: stack)) =
      rest.foldlM Build.step
        (.built (.ofMembers (((key, value) :: before).reverse ++ members)) stack) := by
  induction members generalizing before key value with
  | nil =>
    rw [List.append_nil]
    rfl
  | cons entry members ih =>
    obtain ⟨next, nextValue⟩ := entry
    have hentry := h (next, nextValue) List.mem_cons_self
      (.members ((key, value) :: before) next :: stack) (membersOnto members rest) rfl
    have hmembers := ih (fun other hmem ↦ h other (List.mem_cons_of_mem _ hmem))
      ((key, value) :: before) next nextValue
    calc (membersOnto ((next, nextValue) :: members) rest).foldlM Build.step
          (.built value (.members before key :: stack))
        = (tokensOnto nextValue (membersOnto members rest)).foldlM Build.step
            (.expected (.members ((key, value) :: before) next :: stack)) := rfl
      _ = (membersOnto members rest).foldlM Build.step
            (.built nextValue (.members ((key, value) :: before) next :: stack)) := hentry
      _ = rest.foldlM Build.step (.built
            (.ofMembers (((next, nextValue) :: (key, value) :: before).reverse ++ members))
            stack) := hmembers
      _ = _ := by simp

theorem builds_array {items : List Json} {height : Nat}
    (h : ∀ item ∈ items, Builds (height + 1) item) (hroom : height < maxDepth) :
    Builds height (.array items) := by
  rintro stack rest rfl
  have hopened (tail : List Token) : (Token.openArray :: tail).foldlM Build.step
      (.expected stack) = tail.foldlM Build.step (.firstItem stack) := by
    rw [List.foldlM_cons, show Build.step (.expected stack) .openArray = _ from if_pos hroom]
    rfl
  cases items with
  | nil => exact hopened _
  | cons item items =>
    calc (tokensOnto (.array (item :: items)) rest).foldlM Build.step (.expected stack)
        = (tokensOnto item (itemsOnto items rest)).foldlM Build.step (.firstItem stack) :=
          hopened _
      _ = (tokensOnto item (itemsOnto items rest)).foldlM Build.step
            (.expected (.items [] :: stack)) := foldlM_step_firstItem item _ stack
      _ = (itemsOnto items rest).foldlM Build.step (.built item (.items [] :: stack)) :=
          h item List.mem_cons_self _ _ rfl
      _ = rest.foldlM Build.step (.built (.array (item :: items)) stack) :=
          foldlM_step_itemsOnto (fun other hmem ↦ h other (List.mem_cons_of_mem _ hmem)) [] item
            rest

theorem builds_object {members : List (String × Json)} {height : Nat}
    (hsorted : members.Pairwise fun left right ↦ left.1 < right.1)
    (h : ∀ entry ∈ members, Builds (height + 1) entry.2) (hroom : height < maxDepth) :
    Builds height (.object members) := by
  rintro stack rest rfl
  have hopened (tail : List Token) : (Token.openObject :: tail).foldlM Build.step
      (.expected stack) = tail.foldlM Build.step (.firstKey stack) := by
    rw [List.foldlM_cons, show Build.step (.expected stack) .openObject = _ from if_pos hroom]
    rfl
  cases members with
  | nil => exact hopened _
  | cons entry members =>
    obtain ⟨key, value⟩ := entry
    calc (tokensOnto (.object ((key, value) :: members)) rest).foldlM Build.step
          (.expected stack)
        = (.string key :: .colon :: tokensOnto value (membersOnto members rest)).foldlM
            Build.step (.firstKey stack) := hopened _
      _ = (membersOnto members rest).foldlM Build.step
            (.built value (.members [] key :: stack)) := h _ List.mem_cons_self _ _ rfl
      _ = rest.foldlM Build.step (.built (.ofMembers ((key, value) :: members)) stack) :=
          foldlM_step_membersOnto (fun other hmem ↦ h other (List.mem_cons_of_mem _ hmem)) [] key
            value rest
      _ = rest.foldlM Build.step (.built (.object ((key, value) :: members)) stack) := by
          rw [Json.ofMembers, Json.ofMap, SortedMap.entries_ofList hsorted]

/-- A tidy value is built wherever its containers still fit. -/
theorem Tidy.builds {value : Json} (h : value.Tidy reals depth) {height : Nat}
    (hroom : depth + height ≤ maxDepth) : Builds height value := by
  induction depth generalizing value height with
  | zero =>
    cases value with
    | array items => exact h.elim
    | object members => exact h.elim
    | _ => exact fun _ _ _ ↦ rfl
  | succ depth ih =>
    cases value with
    | array items => exact builds_array (fun item hitem ↦ ih (h item hitem) (by omega)) (by omega)
    | object members =>
      exact builds_object h.1 (fun entry hentry ↦ ih (h.2 entry hentry) (by omega)) (by omega)
    | _ => exact fun _ _ _ ↦ rfl

/-- The tokens of a tidy value stand for it. -/
theorem Tidy.ofTokens?_tokens {value : Json} (h : value.Tidy reals depth)
    (hdepth : depth ≤ maxDepth) : ofTokens? (tokens value) = some value := by
  have hbuilt : (tokens value).foldlM Build.step (.expected []) = some (.built value []) :=
    h.builds hdepth [] [] rfl
  rw [ofTokens?, hbuilt]

/-! ## The text of a tidy value -/

theorem scannable_itemsOnto {items : List Json} {rest : List Token}
    (h : ∀ item ∈ items, ∀ rest, Scannable rest → Delimited rest →
      Scannable (tokensOnto item rest)) (hrest : Scannable rest) :
    Scannable (itemsOnto items rest) ∧ Delimited (itemsOnto items rest) := by
  induction items with
  | nil => exact ⟨⟨rfl, .inl rfl, hrest⟩, fun _ hfirst ↦ by cases hfirst; rfl⟩
  | cons item items ih =>
    obtain ⟨hitems, hdelimited⟩ := ih fun other hmem ↦ h other (List.mem_cons_of_mem _ hmem)
    have hitem := h item List.mem_cons_self _ hitems hdelimited
    exact ⟨⟨rfl, .inl rfl, hitem⟩, fun _ hfirst ↦ by cases hfirst; rfl⟩

theorem scannable_membersOnto {members : List (String × Json)} {rest : List Token}
    (h : ∀ entry ∈ members, ∀ rest, Scannable rest → Delimited rest →
      Scannable (tokensOnto entry.2 rest)) (hrest : Scannable rest) :
    Scannable (membersOnto members rest) ∧ Delimited (membersOnto members rest) := by
  have hcolon : ∀ rest, Delimited (Token.colon :: rest) :=
    fun _ _ hfirst ↦ by cases hfirst; rfl
  induction members with
  | nil => exact ⟨⟨rfl, .inl rfl, hrest⟩, fun _ hfirst ↦ by cases hfirst; rfl⟩
  | cons entry members ih =>
    obtain ⟨hmembers, hdelimited⟩ := ih fun other hmem ↦ h other (List.mem_cons_of_mem _ hmem)
    have hvalue := h entry List.mem_cons_self _ hmembers hdelimited
    exact ⟨⟨rfl, .inl rfl, rfl, .inr (hcolon _), rfl, .inl rfl, hvalue⟩,
      fun _ hfirst ↦ by cases hfirst; rfl⟩

/-- The tokens of a tidy value without reals can be scanned. -/
theorem Tidy.scannable {value : Json} (h : value.Tidy false depth) {rest : List Token}
    (hrest : Scannable rest) (hdelimited : Delimited rest) : Scannable (tokensOnto value rest) := by
  induction depth generalizing value rest with
  | zero =>
    cases value with
    | real number => cases h
    | array items => exact h.elim
    | object members => exact h.elim
    | _ => exact ⟨rfl, .inr hdelimited, hrest⟩
  | succ depth ih =>
    cases value with
    | real number => cases h
    | array items =>
      cases items with
      | nil => exact ⟨rfl, .inl rfl, rfl, .inl rfl, hrest⟩
      | cons item items =>
        obtain ⟨hitems, hend⟩ := scannable_itemsOnto
          (fun other hmem _ hrest hend ↦ ih (h other (List.mem_cons_of_mem _ hmem)) hrest hend)
          hrest
        exact ⟨rfl, .inl rfl, ih (h item List.mem_cons_self) hitems hend⟩
    | object members =>
      cases members with
      | nil => exact ⟨rfl, .inl rfl, rfl, .inl rfl, hrest⟩
      | cons entry members =>
        obtain ⟨hmembers, hend⟩ := scannable_membersOnto
          (fun other hmem _ hrest hend ↦ ih (h.2 other (List.mem_cons_of_mem _ hmem)) hrest hend)
          hrest
        have hcolon : Delimited (.colon :: tokensOnto entry.2 (membersOnto members rest)) :=
          fun _ hfirst ↦ by cases hfirst; rfl
        exact ⟨rfl, .inl rfl, rfl, .inr hcolon, rfl, .inl rfl,
          ih (h.2 entry List.mem_cons_self) hmembers hend⟩
    | _ => exact ⟨rfl, .inr hdelimited, hrest⟩

/-- The compact text of an ordered value without reals has the tokens of the value. -/
theorem Tidy.parse?_compact_eq {value : Json} (h : value.Tidy false depth) :
    parse? value.compact = ofTokens? (tokens value) := by
  have hnone : Delimited [] := fun _ hfirst ↦ by cases hfirst
  have hscannable : Scannable (tokensOnto value []) := h.scannable trivial hnone
  have htokens : tokenize? (write value) = some (tokens value) :=
    tokenize?_flatMap_write hscannable
  calc parse? value.compact
      = (tokenize? (write value)).bind ofTokens? := by
        rw [parse?, read?, compact, String.toList_ofList]
    _ = ofTokens? (tokens value) := by rw [htokens, Option.bind_some]

/-- A tidy value without reals reads back from its compact text. -/
theorem Tidy.parse?_compact {value : Json} (h : value.Tidy false depth)
    (hdepth : depth ≤ maxDepth) : parse? value.compact = some value := by
  rw [h.parse?_compact_eq, h.ofTokens?_tokens hdepth]

end SliceControl.Json
