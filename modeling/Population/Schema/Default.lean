import Population.Schema.Reader

namespace Population.Schema

def defaultName : Text := "constructors.mi"

def defaultLines : List String :=
  ["[type]",
    "name string",
    "alias string",
    "phrase string",
    "data_type string",
    "domain_type string",
    "nominal integer",
    "rnum integer",
    "mult string",
    "flag bool",
    "id_tags string",
    "ref_targets string",
    "",
    "[constructor]",
    "domain",
    "name->domain:name, alias:alias, [type:domain_type]",
    "",
    "type",
    "name:name, base:data_type, domain:name",
    "",
    "subsystem",
    "name->subsystem:name, alias:alias,",
    "floor:nominal, ceiling:nominal, domain:name",
    "",
    "class",
    "name->class:name, alias:alias, [cnum:nominal],",
    "subsystem:name, domain:name",
    "",
    "independent_attribute / new_ind_attr",
    "name:name, [type:data_type], [derived:flag],",
    "class:name, domain:name",
    "",
    "binary_association / new_bin_rel",
    "rnum:rnum,",
    "a_class:name, a_phrase:phrase, a_mult:mult,",
    "p_class:name, p_phrase:phrase, p_mult:mult,",
    "subsystem:name, domain:name",
    "",
    "generalization / new_gen",
    "rnum:rnum, superclass:name, subclasses:name...,",
    "subsystem:name, domain:name",
    "",
    "formalization / formalize_rel",
    "rnum:rnum,",
    "ref_classes:name..., ref_attrs:name...,",
    "to_classes:name..., to_attrs:name...,",
    "[constrained:flag], domain:name",
    "",
    "identifier_attribute / add_attr_to_id",
    "class:name, id_num:nominal, attr:name, domain:name",
    "",
    "identifier_eviction / remove_attr_from_id",
    "class:name, id_num:nominal, attr:name, domain:name",
    "",
    "bridge",
    "client:name, service:name"]

def defaultText : Text :=
  Text.lines (defaultLines.map Text.ofString)

def default : Except Fault Schema :=
  ofBytes defaultName defaultText

end Population.Schema
