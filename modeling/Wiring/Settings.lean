/-!
# Settings of a generation pass

How generated classes are named and introduced, and the qualified names of the runtime
symbols that generated code talks to.  Every setting has a built-in value.

## Main definitions

* `Naming` — suffix and header of generated classes.
* `Symbols` — the runtime symbols.
* `Settings` — both together.
-/

namespace Wiring

/-- How generated classes are named and introduced. -/
structure Naming where
  /-- Appended to the owner's simple name. -/
  suffix : String := "$$ARouter$$Autowired"
  /-- The comment on every generated class. -/
  header : String := "DO NOT EDIT THIS FILE!!! IT WAS GENERATED BY AROUTER."
  deriving Repr, DecidableEq

/-- The qualified names of the runtime symbols that generated code talks to. -/
structure Symbols where
  /-- The service registry. -/
  registry : String := "com.alibaba.android.arouter.launcher.ARouter"
  /-- The contract every generated class implements. -/
  injectorInterface : String := "com.alibaba.android.arouter.facade.template.ISyringe"
  /-- The supertype of all types the registry provides. -/
  providerCapability : String := "com.alibaba.android.arouter.facade.template.IProvider"
  /-- The optional service that turns text into objects. -/
  serializationService : String :=
    "com.alibaba.android.arouter.facade.service.SerializationService"
  /-- The generic token that describes the type to build from text. -/
  typeWrapper : String := "com.alibaba.android.arouter.facade.model.TypeWrapper"
  /-- The log. -/
  logFacility : String := "android.util.Log"
  /-- The tag of log entries. -/
  logTag : String := "ARouter::"
  /-- The marker on injected properties. -/
  marker : String := "com.alibaba.android.arouter.facade.annotation.Autowired"
  /-- The supertype of serializable types. -/
  serializable : String := "java.io.Serializable"
  /-- The supertype of parcelable types. -/
  parcelable : String := "android.os.Parcelable"
  deriving Repr, DecidableEq

/-- All settings of a pass. -/
structure Settings where
  /-- Names and introduction of generated classes. -/
  naming : Naming := {}
  /-- The runtime symbols. -/
  symbols : Symbols := {}
  deriving Repr, DecidableEq

end Wiring
