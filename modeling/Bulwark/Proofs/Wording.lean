import Bulwark.Proofs.Causes

/-!
What an error says, and what it names as its sources.

The message of a failed fallback quotes what the fallback failed with and what it failed on, each
whole. An operation that failed with the error of a call says what that error says. So the message
of an error quotes all that it was made from, at any depth (`Fault.Within`), and under layers
it is the message of the core between what the layers put before it and after it.

Sources are found one at a time: whoever has an error may ask it for the next one (`Fault.source?`).
An operation has the source of what it failed with, and not what it failed with, so a text is
not met twice; the defect of a configuration is a source, and a failed fallback has none.

* `Fault.chain_iff`: followed to the end, sources are the chain that the error has.
* `Fault.Within.shown`: a message quotes the messages of all that the error was made from.
* `CallError.message_under`, `CallError.sources_under`: messages and chains under any layers.
* `CallError.worded`: the laws of messages and chains.
-/

namespace Bulwark

/-- A text has another one in it, whole. -/
def Shows (text part : String) : Prop := part.toList <:+: text.toList

namespace Shows

variable {text part inner : String}

theorem refl (text : String) : Shows text text := List.infix_refl _

theorem trans (outside : Shows text part) (inside : Shows part inner) : Shows text inner :=
  List.IsInfix.trans inside outside

theorem between (before part after : String) : Shows (before ++ part ++ after) part := by
  simp only [Shows, String.toList_append]
  exact List.infix_append _ _ _

end Shows

/-! ### Errors from errors -/

namespace Fault

def above (text : String) (source : Fault) : Fault :=
  .plain ⟨text, source.message :: source.sources⟩

/-- An error with a text of its own and nested sources, each a source of the one before. -/
def nested (text : String) : List String → Fault
  | [] => .plain ⟨text, []⟩
  | source :: rest => .above text (nested source rest)

/-- What an error was made from, at any depth, and the error itself. -/
inductive Within (x : Fault) : Fault → Prop where
  | self : Within x x
  | operation {inner : Fault} : Within x inner → Within x (.call (.operation inner))
  | failed {failed : Fault} {cause : CallError} :
      Within x failed → Within x (.call (.fallback failed cause))
  | cause {failed : Fault} {cause : CallError} :
      Within x (.call cause) → Within x (.call (.fallback failed cause))

end Fault

mutual

/-- The next error down, as far as an error gives it away. -/
def Fault.source? : Fault → Option Fault
  | .plain ⟨_, []⟩ => none
  | .plain ⟨_, text :: rest⟩ => some (.plain ⟨text, rest⟩)
  | .call e => e.source?

def CallError.source? : CallError → Option Fault
  | .operation inner => inner.source?
  | .config defect => some (.plain ⟨defect.message, []⟩)
  | _ => none

end

namespace Fault

/-- The texts that are met when sources are followed to the end, outermost first. -/
inductive Chain : Fault → List String → Prop where
  | last {f : Fault} : f.source? = none → Chain f []
  | next {f source : Fault} {texts : List String} :
      f.source? = some source → Chain source texts → Chain f (source.message :: texts)

theorem nested_eq (text : String) (texts : List String) :
    nested text texts = .plain ⟨text, texts⟩ := by
  induction texts generalizing text with
  | nil => rfl
  | cons source rest ih => rw [nested, ih, above, message, sources]

end Fault

/-! ### Sources -/

/-- The error that stands for a chain: it shows the first text, and has the rest for its own. -/
def Fault.ofChain : List String → Option Fault
  | [] => none
  | text :: rest => some (.plain ⟨text, rest⟩)

mutual

/-- The next error down stands for the chain of an error. -/
theorem Fault.source?_eq : ∀ f : Fault, f.source? = Fault.ofChain f.sources
  | .plain ⟨_, []⟩ => rfl
  | .plain ⟨_, _ :: _⟩ => rfl
  | .call e => e.source?_eq

theorem CallError.source?_eq : ∀ e : CallError, e.source? = Fault.ofChain e.sources
  | .operation inner => inner.source?_eq
  | .config _ => rfl
  | .circuitOpen | .maxConcurrency | .timeout | .fallback _ _ | .noRuntime => rfl

end

namespace Fault

variable {f x : Fault} {texts : List String}

theorem source?_eq_none_iff : f.source? = none ↔ f.sources = [] := by
  rw [source?_eq]
  cases f.sources <;> simp [ofChain]

/-- The chain of an error is the message of the next error down, before that error's chain. -/
theorem sources_of_source? (found : f.source? = some x) : f.sources = x.message :: x.sources := by
  rw [source?_eq] at found
  cases own : f.sources with
  | nil =>
      rw [own, ofChain] at found
      cases found
  | cons text rest =>
      rw [own, ofChain] at found
      cases found
      rfl

/-- The sources of a fault are its chain. -/
theorem chain_sources (f : Fault) : f.Chain f.sources := by
  generalize own : f.sources = texts
  induction texts generalizing f with
  | nil => exact .last (source?_eq_none_iff.mpr own)
  | cons text rest ih =>
      have found : f.source? = some (.plain ⟨text, rest⟩) := by rw [source?_eq, own, ofChain]
      exact .next found (ih _ rfl)

/-- Followed to the end, sources are the chain that the error has, and no other. -/
theorem chain_iff : f.Chain texts ↔ texts = f.sources := by
  constructor
  · intro chain
    induction chain with
    | last ended => exact (source?_eq_none_iff.mp ended).symm
    | next found _ ih => rw [ih, sources_of_source? found]
  · rintro rfl
    exact f.chain_sources

end Fault

namespace CallError

variable {e : CallError}

theorem sources_fallback (failed : Fault) (cause : CallError) :
    (fallback failed cause).sources = [] := rfl

theorem sources_of_fallback (fallen : e.isFallbackFailure = true) : e.sources = [] := by
  obtain ⟨failed, cause, rfl⟩ := isFallbackFailure_iff.mp fallen
  rfl

/-- Under layers, the chain stays what it was until a fallback fails, and then there is none. -/
theorem sources_under (e : CallError) (layers : List Layer) :
    (e.under layers).sources = if layers.all Layer.hides then e.sources else [] := by
  induction layers generalizing e with
  | nil => rfl
  | cons inner rest ih =>
      rw [under_cons, ih, List.all_cons]
      cases inner with
      | fallback failed =>
          rw [wrap, sources_fallback, Layer.hides, Bool.false_and, if_neg Bool.false_ne_true,
            ite_self]
      | operation => rw [wrap, sources, Fault.sources, Layer.hides, Bool.true_and]

end CallError

/-! ### Messages -/

def Layer.opening : Layer → String
  | .fallback failed => "fallback failed with '" ++ failed.message ++ "'. run error was '"
  | .operation => ""

def Layer.closing : Layer → String
  | .fallback _ => "'"
  | .operation => ""

namespace CallError

variable {e : CallError}

theorem message_fallback (failed : Fault) (cause : CallError) :
    (fallback failed cause).message =
      "fallback failed with '" ++ failed.message ++ "'. run error was '" ++ cause.message ++ "'" :=
  rfl

/-- A layer puts its words around the message of what it wraps. -/
theorem message_wrap (e : CallError) (layer : Layer) :
    (e.wrap layer).message = layer.opening ++ e.message ++ layer.closing := by
  cases layer with
  | fallback failed => rfl
  | operation =>
      change e.message = "" ++ e.message ++ ""
      rw [String.empty_append, String.append_empty]

/-- Under layers, the message is whole between what they put before it, the outermost first, and
what they put after it. -/
theorem message_under (e : CallError) (layers : List Layer) :
    (e.under layers).message =
      String.join (layers.reverse.map Layer.opening) ++ e.message ++
        String.join (layers.map Layer.closing) := by
  induction layers generalizing e with
  | nil => simp [under]
  | cons inner rest ih =>
      rw [under_cons, ih, message_wrap]
      simp [String.append_assoc]

theorem shows_wrap (e : CallError) (layer : Layer) : Shows (e.wrap layer).message e.message := by
  rw [message_wrap]
  exact .between _ _ _

/-- The message of a failed fallback quotes what it failed on. -/
theorem shows_cause (failed : Fault) (cause : CallError) :
    Shows (fallback failed cause).message cause.message :=
  shows_wrap cause (.fallback failed)

/-- The message of a failed fallback quotes what it failed with. -/
theorem shows_failed (failed : Fault) (cause : CallError) :
    Shows (fallback failed cause).message failed.message := by
  have split : (fallback failed cause).message =
      "fallback failed with '" ++ failed.message ++
        ("'. run error was '" ++ cause.message ++ "'") := by
    simp only [message_fallback, String.append_assoc]
  rw [split]
  exact .between _ _ _

/-- The message of an operation's error quotes what it failed with. -/
theorem shows_operation (inner : Fault) : Shows (operation inner).message inner.message :=
  .refl _

end CallError

/-- A message quotes the messages of all that the error was made from, at any depth. -/
theorem Fault.Within.shown {x f : Fault} (within : x.Within f) : Shows f.message x.message := by
  induction within with
  | self => exact .refl _
  | operation _ ih => exact (CallError.shows_operation _).trans ih
  | failed _ ih => exact (CallError.shows_failed _ _).trans ih
  | cause _ ih => exact (CallError.shows_cause _ _).trans ih

namespace CallError

variable {e : CallError}

def wrapped (e : CallError) (times : Nat) : CallError := e.under (.replicate times .operation)

theorem message_wrapped (e : CallError) (times : Nat) : (e.wrapped times).message = e.message := by
  induction times generalizing e with
  | zero => rfl
  | succ n ih => exact ih (e.wrap .operation)

theorem sources_wrapped (e : CallError) (times : Nat) : (e.wrapped times).sources = e.sources := by
  induction times generalizing e with
  | zero => rfl
  | succ n ih => exact ih (e.wrap .operation)

/-- Behind fallbacks, the message is whole between all that they failed with, the last first, and
their closing quotes. -/
theorem message_behind (e : CallError) (failed : List Fault) :
    (e.behind failed).message =
      String.join (failed.reverse.map fun f =>
        "fallback failed with '" ++ f.message ++ "'. run error was '") ++ e.message ++
        String.join (failed.map fun _ => "'") := by
  rw [behind, message_under, ← List.map_reverse, List.map_map, List.map_map]
  rfl

example : (timeout.behind [.plain ⟨"no cache", ["no disk"]⟩, .call .circuitOpen]).message =
    "fallback failed with 'circuit open'. run error was " ++
      "'fallback failed with 'no cache'. run error was 'timeout''" := by decide

/-- Each fallback that failed is a part of the error. -/
theorem within_of_mem_failures {failed : Fault} (member : failed ∈ e.failures) :
    failed.Within (.call e) := by
  induction e using fallback_induction with
  | fallback last cause ih =>
      rcases List.mem_append.mp member with earlier | only
      · exact .cause (ih earlier)
      · rw [List.mem_singleton.mp only]
        exact .failed .self
  | bare e plain =>
      rw [failures_of_not_fallback plain] at member
      cases member

/-- So is the root cause. -/
theorem within_rootCause (e : CallError) : (Fault.call e.rootCause).Within (.call e) := by
  induction e using fallback_induction with
  | fallback failed cause ih => exact .cause ih
  | bare e plain =>
      rw [rootCause_of_not_fallback plain]
      exact .self

/-- An error with a failed fallback has no sources. -/
theorem sources_of_failures (fallen : e.failures ≠ []) : e.sources = [] := by
  cases plain : e.isFallbackFailure with
  | false => exact absurd (failures_of_not_fallback plain) fallen
  | true => exact sources_of_fallback plain

/-! ### Every error -/

def layers : CallError → List Layer
  | .fallback failed cause => cause.layers ++ [.fallback failed]
  | .operation (.call e) => e.layers ++ [.operation]
  | _ => []

def core : CallError → CallError
  | .fallback _ cause => cause.core
  | .operation (.call e) => e.core
  | e => e

theorem layers_wrap (e : CallError) (layer : Layer) :
    (e.wrap layer).layers = e.layers ++ [layer] := by
  cases layer <;> rfl

theorem core_wrap (e : CallError) (layer : Layer) : (e.wrap layer).core = e.core := by
  cases layer <;> rfl

/-- What passes from an error to those with one more layer holds of every error, if it holds of
those without layers. -/
@[elab_as_elim]
theorem layer_induction {motive : CallError → Prop}
    (wrap : ∀ e layer, motive e → motive (e.wrap layer))
    (core : ∀ e : CallError, e.layers = [] → e.core = e → motive e) (e : CallError) :
    motive e := by
  induction e using layers.induct with
  | case1 failed cause ih => exact wrap cause (.fallback failed) ih
  | case2 inner ih => exact wrap inner .operation ih
  | case3 e notFallback notCall =>
      cases e with
      | fallback failed cause => exact absurd rfl (notFallback failed cause)
      | operation inner =>
          cases inner with
          | call e => exact absurd rfl (notCall e)
          | plain e => exact core _ rfl rfl
      | _ => exact core _ rfl rfl

/-- An error is its core under its layers. -/
theorem under_layers (e : CallError) : e.core.under e.layers = e := by
  induction e using layer_induction with
  | wrap e layer ih => rw [core_wrap, layers_wrap, under_concat, ih]
  | core e bare own =>
      rw [bare, own]
      rfl

theorem layers_core (e : CallError) : e.core.layers = [] := by
  induction e using layer_induction with
  | wrap e layer ih => rwa [core_wrap]
  | core e bare own => rwa [own]

/-- The laws of messages and of chains of sources, for an error of any nesting. -/
structure Worded (e : CallError) : Prop where
  /-- An operation that fails with the error, through any number of calls, says what it says and
  has its sources. -/
  wrapped : ∀ times, (e.wrapped times).message = e.message ∧ (e.wrapped times).sources = e.sources
  /-- Followed one at a time, sources are those of the chain, each once and in its order. -/
  followed : ∀ texts, (Fault.call e).Chain texts ↔ texts = e.sources
  /-- The message quotes the messages of all that the error was made from, at any depth. -/
  quoted : ∀ x : Fault, x.Within (.call e) → Shows e.message x.message
  /-- A failed fallback quotes what it failed with and what it failed on, and has no source. -/
  fallen : ∀ failed cause, e = .fallback failed cause →
    Shows e.message failed.message ∧ Shows e.message cause.message ∧ e.sources = []
  /-- Behind any number of failed fallbacks, the message is that of the root cause between what
  each of them failed with, the last first, and as many closing quotes. -/
  named : e.message =
    String.join (e.failures.reverse.map fun failed =>
      "fallback failed with '" ++ failed.message ++ "'. run error was '") ++ e.rootCause.message ++
      String.join (e.failures.map fun _ => "'")
  shown : (∀ failed ∈ e.failures, Shows e.message failed.message) ∧
    Shows e.message e.rootCause.message
  untraced : e.failures ≠ [] → e.sources = []
  /-- Where fallbacks and operations are mixed, the error is a core under layers. The message is
  that of the core between what the layers put around it, and the chain is that of the core unless
  one of the layers is a fallback. -/
  assembled : e.core.under e.layers = e ∧ e.core.layers = []
  spelled : e.message = String.join (e.layers.reverse.map Layer.opening) ++ e.core.message ++
    String.join (e.layers.map Layer.closing)
  traced : e.sources = if e.layers.all Layer.hides then e.core.sources else []
  /-- The defect of a configuration is all that the chain has, through any number of calls. -/
  config : ∀ defect times, ((CallError.config defect).wrapped times).sources = [defect.message]
  /-- An error of the operation's own has its nested sources, outermost first, and is not met
  among them, through any number of calls. -/
  plain : ∀ text texts times,
    ((CallError.operation (.nested text texts)).wrapped times).message = text ∧
      ((CallError.operation (.nested text texts)).wrapped times).sources = texts
  /-- If it has the error of a call for its source, then that error is met next, and its sources. -/
  above : ∀ text, (CallError.operation (.above text (.call e))).message = text ∧
    (CallError.operation (.above text (.call e))).sources = e.message :: e.sources

/-- Messages and chains of sources compose. -/
theorem worded (e : CallError) : e.Worded where
  wrapped times := ⟨e.message_wrapped times, e.sources_wrapped times⟩
  followed _ := Fault.chain_iff
  quoted _ within := within.shown
  fallen := by
    rintro failed cause rfl
    exact ⟨shows_failed failed cause, shows_cause failed cause, sources_fallback failed cause⟩
  named := by
    have message := e.rootCause.message_behind e.failures
    rwa [behind_failures] at message
  shown := by
    constructor
    · intro failed member
      exact (within_of_mem_failures member).shown
    · exact e.within_rootCause.shown
  untraced := sources_of_failures
  assembled := ⟨e.under_layers, e.layers_core⟩
  spelled := by
    have message := e.core.message_under e.layers
    rwa [under_layers] at message
  traced := by
    have sources := e.core.sources_under e.layers
    rwa [under_layers] at sources
  config defect times := by
    rw [sources_wrapped]
    rfl
  plain text texts times := by
    rw [message_wrapped, sources_wrapped, Fault.nested_eq]
    exact ⟨rfl, rfl⟩
  above _ := ⟨rfl, rfl⟩

end CallError

end Bulwark
