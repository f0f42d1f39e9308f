import Echo.Api.Actions
import Echo.Lib.Templates

/-!
Localised replies (`render`, `t!`, `plural!` and `ServiceCtx::notice` in `api/src/lib.rs`). A
template is looked up in the catalog of a language and filled in. `notice` looks up what it
is given once more, so a reply that has been filled in changes if the catalog happens to
have an entry for the whole of it.
-/

namespace Echo.Api

open Echo.Lib Echo.Lib.Templates

/-- The translations of message ids, by language. -/
abbrev Catalog := (lang msgid : String) → Option String

/-- The value of the first argument of a name. -/
def argument (args : List (String × String)) (name : List Char) : Option (List Char) :=
  (args.find? fun a => a.1.toList = name).map (·.2.toList)

/-- The loop of `render`, in so many rounds. -/
def fill (args : List (String × String)) : Nat → List Char → List Char
  | 0, rest => rest
  | n + 1, rest =>
    match splitOnce ['{'] rest with
    | none => rest
    | some (before, tail) =>
      match splitOnce ['}'] tail with
      -- What comes before the brace is out already, and comes out again with the rest.
      | none => before ++ rest
      | some (name, rest) => before ++ (shown '{' '}' (argument args) name ++ fill args n rest)

section Render

variable (catalog : Catalog) (lang : String)

/-- The text a message id stands for. -/
def template (msgid : String) : String := (catalog lang msgid).getD msgid

def render (msgid : String) (args : List (String × String)) : String :=
  let template := template catalog lang msgid
  if args.isEmpty || !template.toList.contains '{' then template
  else String.ofList (fill args template.toList.length template.toList)

inductive Plural where
  | one
  | other
  deriving DecidableEq, Repr

def pluralCategory (lang : String) (n : Nat) : Plural :=
  let isOne := match lang with
    | "fr" | "pt-br" => n = 0 || n = 1
    | _ => n = 1
  if isOne then .one else .other

def renderPlural (n : Nat) (one other : String) (args : List (String × String)) : String :=
  render catalog lang (match pluralCategory lang n with | .one => one | .other => other) args

end Render

/-- What a service writes its replies to: the actions so far, the language of the replies, and
who is answered about which message. -/
structure ServiceCtx where
  actions : List NetAction := []
  lang : String := ""
  senderUid : String := ""
  replyTo : Option String := none

namespace ServiceCtx

variable (catalog : Catalog) (ctx : ServiceCtx)

def language : String := if ctx.lang.isEmpty then "en" else ctx.lang

/-- Queue an action, with its tags if there are any. -/
def pushTagged (inner : NetAction) («to» : String) (tags : List (String × String)) : ServiceCtx :=
  let tags := if «to» = ctx.senderUid then tags ++ (ctx.replyTo.map fun id => ("+draft/reply", id)).toList else tags
  { ctx with actions := ctx.actions ++ [if tags.isEmpty then inner else .tagged tags inner] }

def notice («from» «to» text : String) : ServiceCtx :=
  ctx.pushTagged (.notice «from» «to» (render catalog ctx.language text [])) «to» []

def noticeTagged («from» «to» text : String) (tags : List (String × String)) : ServiceCtx :=
  ctx.pushTagged (.notice «from» «to» (render catalog ctx.language text [])) «to» tags

end ServiceCtx

/-- A reply built with `t!` or `plural!`. -/
inductive Reply where
  | t (msgid : String) (args : List (String × String))
  | plural (n : Nat) (one other : String) (args : List (String × String))

namespace Reply

def args : Reply → List (String × String)
  | .t _ args | .plural _ _ _ args => args

/-- The message id of a reply in a language. -/
def msgid (lang : String) : Reply → String
  | .t msgid _ => msgid
  | .plural n one other _ => match pluralCategory lang n with | .one => one | .other => other

/-- The text a reply is built as. -/
def text (catalog : Catalog) (lang : String) : Reply → String
  | .t msgid args => render catalog lang msgid args
  | .plural n one other args => renderPlural catalog lang n one other args

end Reply

/-! ### Filling in -/

section Filling

variable {args : List (String × String)}

/-- A round of the loop, at a template that begins with a name. -/
theorem fill_group {n : Nat} {before name rest : List Char} (first : '{' ∉ before) (closed : '}' ∉ name) :
    fill args (n + 1) (before ++ '{' :: (name ++ '}' :: rest)) =
      before ++ (shown '{' '}' (argument args) name ++ fill args n rest) := by
  simp only [fill, splitOnce_single first, splitOnce_single closed]

theorem fill_opened {n : Nat} {before after : List Char} (first : '{' ∉ before) (opened : '}' ∉ after) :
    fill args (n + 1) (before ++ '{' :: after) = before ++ (before ++ '{' :: after) := by
  simp only [fill, splitOnce_single first, splitOnce_single_none opened]

theorem fill_plain {n : Nat} {text : List Char} (plain : '{' ∉ text) : fill args n text = text := by
  cases n with
  | zero => rfl
  | succ n => simp only [fill, splitOnce_single_none plain]

theorem dangling_opens {text : List Char} (dangling : Dangling '{' '}' text) : '{' ∈ text := by
  cases dangling <;> simp

/-- A template comes out as it is filled in, but for text that is left dangling. -/
theorem fill_spec {n : Nat} {text : List Char} (enough : text.length ≤ n) :
    ∃ out, Filled '{' '}' (argument args) text out ∧ (¬ Dangling '{' '}' text → fill args n text = out) ∧
      (Dangling '{' '}' text → out.length < (fill args n text).length) := by
  induction n generalizing text with
  | zero =>
    obtain rfl := List.eq_nil_of_length_eq_zero (Nat.le_zero.mp enough)
    exact ⟨[], filled_noOpen (by simp), fun _ => rfl, fun dangling => absurd (dangling_opens dangling) (by simp)⟩
  | succ n ih =>
    cases begins '{' '}' text with
    | plain noOpen =>
      exact ⟨text, filled_noOpen noOpen, fun _ => fill_plain noOpen, fun dangling => absurd (dangling_opens dangling) noOpen⟩
    | @opened before after first noClose =>
      refine ⟨_, filled_noClose noClose first, fun not => ?_, fun dangling => ?_⟩
      · have none : before = [] := by
          by_contra some
          exact not (.here first some noClose)
        rw [fill_opened first noClose, none]
        rfl
      · rw [fill_opened first noClose]
        generalize whole : before ++ '{' :: after = text at dangling
        cases dangling with
        | @here before' after' first' begun opened =>
          have split := splitOnce_single first after
          rw [whole, splitOnce_single first'] at split
          obtain ⟨rfl, -⟩ := Prod.mk.inj (Option.some.inj split)
          have pos := List.length_pos_iff.mpr begun
          rw [← whole]
          simp only [List.length_append, List.length_cons]
          omega
        | later first' closed _ =>
          have split := splitOnce_single first after
          rw [whole, splitOnce_single first'] at split
          obtain ⟨-, rfl⟩ := Prod.mk.inj (Option.some.inj split)
          exact absurd (by simp) noClose
    | @group before name rest first closed =>
      obtain ⟨out, filled, same, longer⟩ := @ih rest (by simp at enough; omega)
      have dangles : Dangling '{' '}' (before ++ '{' :: (name ++ '}' :: rest)) ↔ Dangling '{' '}' rest :=
        dangling_group first closed
      refine ⟨_, .group first closed filled, ?_, ?_⟩ <;> rw [dangles, fill_group first closed]
      · intro not
        rw [same not]
      · intro dangling
        have := longer dangling
        simp only [List.length_append]
        omega

end Filling

/-! ### Rendering -/

section Rendering

variable (catalog : Catalog) (lang : String)

theorem template_eq_self_iff {text : String} :
    template catalog lang text = text ↔ ∀ translation, catalog lang text = some translation → translation = text := by
  rw [template]
  cases catalog lang text <;> simp

theorem render_nil (msgid : String) : render catalog lang msgid [] = template catalog lang msgid := by
  simp [render]

/-- What `render` makes of a template is the template filled in, unless something dangles that
the arguments make it look for. -/
theorem render_filled_iff (msgid : String) (args : List (String × String)) :
    Filled '{' '}' (argument args) (template catalog lang msgid).toList (render catalog lang msgid args).toList ↔
      args = [] ∨ ¬ Dangling '{' '}' (template catalog lang msgid).toList := by
  rw [render]
  generalize template catalog lang msgid = template
  by_cases bare : args = []
  · subst bare
    have unknown : ∀ name, argument [] name = none := fun name => rfl
    simp [filled_unknown unknown]
  · by_cases opens : '{' ∈ template.toList
    · obtain ⟨out, filled, same, longer⟩ := @fill_spec args _ _ (Nat.le_refl template.toList.length)
      simp only [List.isEmpty_iff, bare, List.contains_eq_mem, opens, decide_true, Bool.not_true, Bool.or_false,
        if_false, String.toList_ofList, false_or]
      constructor
      · intro told dangling
        have := longer dangling
        rw [told.unique filled] at this
        exact Nat.lt_irrefl _ this
      · intro not
        rw [same not]
        exact filled
    · have still : ¬ Dangling '{' '}' template.toList := fun dangling => opens (dangling_opens dangling)
      simp [bare, opens, still, filled_noOpen opens]

end Rendering

/-- The last action of a service is a notice with this text, in tags or not. -/
def Notices (before after : ServiceCtx) («from» «to» text : String) : Prop :=
  ∃ action, after.actions = before.actions ++ [action] ∧ action.inner = .notice «from» «to» text

theorem notices_pushTagged (ctx : ServiceCtx) («from» «to» text : String) (tags : List (String × String)) :
    Notices ctx (ctx.pushTagged (.notice «from» «to» text) «to» tags) «from» «to» text := by
  rw [Notices, ServiceCtx.pushTagged]
  generalize (if «to» = ctx.senderUid then tags ++ (ctx.replyTo.map fun id => ("+draft/reply", id)).toList
    else tags) = tags
  cases tags <;> exact ⟨_, rfl, rfl⟩

theorem Notices.unique {before after : ServiceCtx} {«from» «to» text text' : String}
    (sent : Notices before after «from» «to» text) (sent' : Notices before after «from» «to» text') : text = text' := by
  obtain ⟨action, pushed, inner⟩ := sent
  obtain ⟨action', pushed', inner'⟩ := sent'
  obtain rfl : action = action' := by simpa using pushed.symm.trans pushed'
  simpa using inner.symm.trans inner'

theorem notices_iff {catalog : Catalog} {ctx : ServiceCtx} {«from» «to» text : String} {tags : List (String × String)} :
    Notices ctx (ctx.noticeTagged catalog «from» «to» text tags) «from» «to» text ↔
      template catalog ctx.language text = text := by
  have sent := notices_pushTagged ctx «from» «to» (render catalog ctx.language text []) tags
  rw [render_nil] at sent
  rw [ServiceCtx.noticeTagged, render_nil]
  constructor
  · exact fun sent' => sent.unique sent'
  · intro still
    rwa [still] at sent ⊢

/-- A reply is filled in once, and what `notice` sends is the reply, unless text dangles in its
template or the catalog translates the reply itself. -/
theorem rendered_once_iff (catalog : Catalog) :
    (∀ lang msgid args,
      Filled '{' '}' (argument args) (template catalog lang msgid).toList (render catalog lang msgid args).toList ↔
        args = [] ∨ ¬ Dangling '{' '}' (template catalog lang msgid).toList) ∧
      ∀ (ctx : ServiceCtx) (reply : Reply) («from» «to» : String) (tags : List (String × String)),
        let template := (template catalog ctx.language (reply.msgid ctx.language)).toList
        let text := reply.text catalog ctx.language
        (Filled '{' '}' (argument reply.args) template text.toList ∧
            Notices ctx (ctx.notice catalog «from» «to» text) «from» «to» text ∧
            Notices ctx (ctx.noticeTagged catalog «from» «to» text tags) «from» «to» text) ↔
          (reply.args = [] ∨ ¬ Dangling '{' '}' template) ∧
            ∀ msgid translation, catalog ctx.language msgid = some translation → translation ≠ msgid →
              ¬ Filled '{' '}' (argument reply.args) template msgid.toList := by
  refine ⟨render_filled_iff catalog, fun ctx reply «from» «to» tags => ?_⟩
  have text : reply.text catalog ctx.language = render catalog ctx.language (reply.msgid ctx.language) reply.args := by
    cases reply <;> rfl
  have tagged := @notices_iff catalog ctx «from» «to» (reply.text catalog ctx.language) tags
  have plain := @notices_iff catalog ctx «from» «to» (reply.text catalog ctx.language) []
  have filled := render_filled_iff catalog ctx.language (reply.msgid ctx.language) reply.args
  rw [← text] at filled
  have same : ctx.notice catalog «from» «to» = fun text => ctx.noticeTagged catalog «from» «to» text [] := rfl
  simp only [filled, same, tagged, plain, and_self, template_eq_self_iff]
  refine and_congr_right fun whole => ?_
  constructor
  · intro still msgid translation known changed other
    obtain rfl : reply.text catalog ctx.language = msgid :=
      String.toList_injective ((filled.mpr whole).unique other)
    exact changed (still _ known)
  · intro none translation known
    by_contra changed
    exact none _ _ known changed (filled.mpr whole)

/-- The catalog of a French network, with one of its entries. -/
def frenchCatalog : Catalog := fun lang msgid =>
  if lang = "fr" ∧ msgid = "  Services role : {role}" then some "  Rôle services : {role}" else none

/-- A memo is shown in French that was not written so, and a brace that is not closed brings the
text before it twice. -/
theorem rendered_again :
    let ctx : ServiceCtx := { lang := "fr" }
    let reply : Reply := .t "  {text}" [("text", "Services role : {role}")]
    reply.text frenchCatalog "fr" = "  Services role : {role}" ∧
      ¬ Notices ctx (ctx.notice frenchCatalog "42SAAAAAC" "042AAAAAB" (reply.text frenchCatalog "fr")) "42SAAAAAC"
        "042AAAAAB" (reply.text frenchCatalog "fr") ∧
      render frenchCatalog "en" "Usage \x7bcmd" [("cmd", "HELP")] = "Usage Usage \x7bcmd" ∧
      ¬ Filled '{' '}' (argument [("cmd", "HELP")]) (template frenchCatalog "en" "Usage \x7bcmd").toList
        (render frenchCatalog "en" "Usage \x7bcmd" [("cmd", "HELP")]).toList := by
  have dangles : Dangling '{' '}' (template frenchCatalog "en" "Usage \x7bcmd").toList :=
    @Dangling.here _ '{' '}' "Usage ".toList "cmd".toList (by decide) (by decide) (by decide)
  refine ⟨by decide +kernel, ?_, by decide +kernel, ?_⟩
  · exact fun sent => absurd (notices_iff.mp sent) (by decide +kernel)
  · simp [render_filled_iff, dangles]

end Echo.Api
