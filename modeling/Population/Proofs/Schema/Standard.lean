import Population.Grammar.Statement
import Population.Schema.Default

namespace Population.Schema

namespace Standard

def name : AppType := ⟨"name", .string⟩
def aliasName : AppType := ⟨"alias", .string⟩
def phrase : AppType := ⟨"phrase", .string⟩
def dataType : AppType := ⟨"data_type", .string⟩
def domainType : AppType := ⟨"domain_type", .string⟩
def nominal : AppType := ⟨"nominal", .integer⟩
def rnum : AppType := ⟨"rnum", .integer⟩
def mult : AppType := ⟨"mult", .string⟩
def flag : AppType := ⟨"flag", .bool⟩
def idTags : AppType := ⟨"id_tags", .string⟩
def refTargets : AppType := ⟨"ref_targets", .string⟩

def one (name : Text) (type : AppType) : Param :=
  ⟨name, type, false, false, none⟩

def optional (name : Text) (type : AppType) : Param :=
  ⟨name, type, true, false, none⟩

def many (name : Text) (type : AppType) : Param :=
  ⟨name, type, false, true, none⟩

/-- The name of what a call makes, which later lines stand in. -/
def entered (scope : Text) : Param :=
  ⟨"name", name, false, false, some scope⟩

def domainCall : Call where
  metaclass := "domain"
  name := "new_domain"
  params := [entered "domain", one "alias" aliasName, optional "type" domainType]

def typeCall : Call where
  metaclass := "type"
  name := "new_type"
  params := [one "name" name, one "base" dataType, one "domain" name]

def subsystemCall : Call where
  metaclass := "subsystem"
  name := "new_subsystem"
  params := [entered "subsystem", one "alias" aliasName, one "floor" nominal, one "ceiling" nominal,
    one "domain" name]

def classCall : Call where
  metaclass := "class"
  name := "new_class"
  params := [entered "class", one "alias" aliasName, optional "cnum" nominal, one "subsystem" name,
    one "domain" name]

def attributeCall : Call where
  metaclass := "independent_attribute"
  name := "new_ind_attr"
  params := [one "name" name, optional "type" dataType, optional "derived" flag, one "class" name,
    one "domain" name]

def associationCall : Call where
  metaclass := "binary_association"
  name := "new_bin_rel"
  params := [one "rnum" rnum, one "a_class" name, one "a_phrase" phrase, one "a_mult" mult,
    one "p_class" name, one "p_phrase" phrase, one "p_mult" mult, one "subsystem" name, one "domain" name]

def generalizationCall : Call where
  metaclass := "generalization"
  name := "new_gen"
  params := [one "rnum" rnum, one "superclass" name, many "subclasses" name, one "subsystem" name,
    one "domain" name]

def formalizationCall : Call where
  metaclass := "formalization"
  name := "formalize_rel"
  params := [one "rnum" rnum, many "ref_classes" name, many "ref_attrs" name, many "to_classes" name,
    many "to_attrs" name, optional "constrained" flag, one "domain" name]

def identificationCall : Call where
  metaclass := "identifier_attribute"
  name := "add_attr_to_id"
  params := [one "class" name, one "id_num" nominal, one "attr" name, one "domain" name]

def evictionCall : Call where
  metaclass := "identifier_eviction"
  name := "remove_attr_from_id"
  params := identificationCall.params

def bridgeCall : Call where
  metaclass := "bridge"
  name := "new_bridge"
  params := [one "client" name, one "service" name]

end Standard

open Standard in
/-- The types and calls of the default schema. -/
def standard : Schema where
  types := [name, aliasName, phrase, dataType, domainType, nominal, rnum, mult, flag, idTags, refTargets]
  calls := [domainCall, typeCall, subsystemCall, classCall, attributeCall, associationCall,
    generalizationCall, formalizationCall, identificationCall, evictionCall, bridgeCall]

theorem default_eq_standard : default = .ok standard := by
  have h : default.toOption = some standard := by decide +kernel
  cases hd : default with
  | error e =>
      rw [hd] at h
      cases h
  | ok s =>
      rw [hd] at h
      rw [Option.some.inj h]

end Population.Schema
