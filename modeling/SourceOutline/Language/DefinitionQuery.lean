/-! The definition queries, one for each language with a grammar. A tag `definition.<kind>` stands
on the node that spans a whole definition; a tag `name.definition.<kind>` stands on its name, whose
parent is the definition. -/
namespace SourceOutline.DefinitionQuery

/-- Grows with every change of a query, so that outlines made with older queries can be told
apart. -/
def catalogVersion : Nat := 1

def python : String :=
  "
(class_definition
    name: (identifier) @name.definition.class) @definition.class

(function_definition
    name: (identifier) @name.definition.function) @definition.function
"

/-- Shared by the dialects of one script language. An exported declaration matches twice, with and
without its export. -/
def scriptCommon : String :=
  "
(function_declaration
    name: (identifier) @name.definition.function) @definition.function

(generator_function_declaration
    name: (identifier) @name.definition.function) @definition.function

(method_definition
    name: (property_identifier) @name.definition.method) @definition.method

(lexical_declaration
    (variable_declarator
        name: (identifier) @name.definition.function
        value: [(arrow_function) (function_expression)])) @definition.function

(export_statement
    declaration: (function_declaration
        name: (identifier) @name.definition.function)) @definition.function
"

def markupElements : String :=
  "
(jsx_element) @definition.jsx_element
"

def javascript : String :=
  scriptCommon ++ "
(class_declaration
    name: (identifier) @name.definition.class) @definition.class

(export_statement
    declaration: (class_declaration
        name: (identifier) @name.definition.class)) @definition.class
" ++
  markupElements

def typescript : String :=
  scriptCommon ++ "
(class_declaration
    name: (type_identifier) @name.definition.class) @definition.class

(abstract_class_declaration
    name: (type_identifier) @name.definition.class) @definition.class

(export_statement
    declaration: (class_declaration
        name: (type_identifier) @name.definition.class)) @definition.class

(interface_declaration
    name: (type_identifier) @name.definition.interface) @definition.interface

(type_alias_declaration
    name: (type_identifier) @name.definition.type) @definition.type

(enum_declaration
    name: (identifier) @name.definition.enum) @definition.enum
"

def tsx : String :=
  typescript ++ markupElements

def go : String :=
  "
(function_declaration
    name: (identifier) @name.definition.function) @definition.function

(method_declaration
    name: (field_identifier) @name.definition.method) @definition.method

(type_declaration
    (type_spec
        name: (type_identifier) @name.definition.type)) @definition.type
"

def rust : String :=
  "
(function_item
    name: (identifier) @name.definition.function) @definition.function

(struct_item
    name: (type_identifier) @name.definition.struct) @definition.struct

(enum_item
    name: (type_identifier) @name.definition.enum) @definition.enum

(trait_item
    name: (type_identifier) @name.definition.trait) @definition.trait

(impl_item
    type: (_) @name.definition.impl) @definition.impl

(mod_item
    name: (identifier) @name.definition.module) @definition.module

(macro_definition
    name: (identifier) @name.definition.macro) @definition.macro
"

def java : String :=
  "
(class_declaration
    name: (identifier) @name.definition.class) @definition.class

(interface_declaration
    name: (identifier) @name.definition.interface) @definition.interface

(enum_declaration
    name: (identifier) @name.definition.enum) @definition.enum

(record_declaration
    name: (identifier) @name.definition.record) @definition.record

(annotation_type_declaration
    name: (identifier) @name.definition.annotation) @definition.annotation

(method_declaration
    name: (identifier) @name.definition.method) @definition.method

(constructor_declaration
    name: (identifier) @name.definition.constructor) @definition.constructor
"

def kotlin : String :=
  "
(class_declaration
    (identifier) @name.definition.class) @definition.class

(object_declaration
    (identifier) @name.definition.object) @definition.object

(function_declaration
    (identifier) @name.definition.function) @definition.function
"

def scala : String :=
  "
(class_definition
    name: (identifier) @name.definition.class) @definition.class

(object_definition
    name: (identifier) @name.definition.object) @definition.object

(trait_definition
    name: (identifier) @name.definition.trait) @definition.trait

(function_definition
    name: (identifier) @name.definition.function) @definition.function
"

def c : String :=
  "
(function_definition
    declarator: (function_declarator
        declarator: (identifier) @name.definition.function)) @definition.function

(struct_specifier
    name: (type_identifier) @name.definition.struct
    body: (field_declaration_list)) @definition.struct

(union_specifier
    name: (type_identifier) @name.definition.union
    body: (field_declaration_list)) @definition.union

(enum_specifier
    name: (type_identifier) @name.definition.enum
    body: (enumerator_list)) @definition.enum

(type_definition
    declarator: (type_identifier) @name.definition.type) @definition.type
"

def cpp : String :=
  "
(function_definition
    declarator: (function_declarator
        declarator: (identifier) @name.definition.function)) @definition.function

(function_definition
    declarator: (function_declarator
        declarator: (qualified_identifier) @name.definition.method)) @definition.method

(function_definition
    declarator: (function_declarator
        declarator: (field_identifier) @name.definition.method)) @definition.method

(class_specifier
    name: (type_identifier) @name.definition.class) @definition.class

(struct_specifier
    name: (type_identifier) @name.definition.struct
    body: (field_declaration_list)) @definition.struct

(enum_specifier
    name: (type_identifier) @name.definition.enum) @definition.enum

(namespace_definition
    name: (namespace_identifier) @name.definition.namespace) @definition.namespace
"

def csharp : String :=
  "
(namespace_declaration
    name: (_) @name.definition.namespace) @definition.namespace

(class_declaration
    name: (identifier) @name.definition.class) @definition.class

(interface_declaration
    name: (identifier) @name.definition.interface) @definition.interface

(struct_declaration
    name: (identifier) @name.definition.struct) @definition.struct

(enum_declaration
    name: (identifier) @name.definition.enum) @definition.enum

(record_declaration
    name: (identifier) @name.definition.record) @definition.record

(method_declaration
    name: (identifier) @name.definition.method) @definition.method

(constructor_declaration
    name: (identifier) @name.definition.constructor) @definition.constructor

(property_declaration
    name: (identifier) @name.definition.property) @definition.property
"

def swift : String :=
  "
(class_declaration
    name: (type_identifier) @name.definition.class) @definition.class

(protocol_declaration
    name: (type_identifier) @name.definition.protocol) @definition.protocol

(function_declaration
    name: (simple_identifier) @name.definition.function) @definition.function
"

def ruby : String :=
  "
(class
    name: (_) @name.definition.class) @definition.class

(module
    name: (_) @name.definition.module) @definition.module

(method
    name: (_) @name.definition.method) @definition.method

(singleton_method
    name: (_) @name.definition.method) @definition.method
"

def php : String :=
  "
(function_definition
    name: (name) @name.definition.function) @definition.function

(class_declaration
    name: (name) @name.definition.class) @definition.class

(interface_declaration
    name: (name) @name.definition.interface) @definition.interface

(trait_declaration
    name: (name) @name.definition.trait) @definition.trait

(enum_declaration
    name: (name) @name.definition.enum) @definition.enum

(method_declaration
    name: (name) @name.definition.method) @definition.method
"

def lua : String :=
  "
(function_declaration
    name: (_) @name.definition.function) @definition.function
"

def bash : String :=
  "
(function_definition
    name: (word) @name.definition.function) @definition.function
"

def ocaml : String :=
  "
(value_definition
    (let_binding
        (value_name) @name.definition.value)) @definition.value

(type_definition
    (type_binding
        (type_constructor) @name.definition.type)) @definition.type

(module_definition
    (module_binding
        (module_name) @name.definition.module)) @definition.module
"

def html : String :=
  "
(script_element) @definition.script

(style_element) @definition.style

(element) @definition.element
"

def css : String :=
  "
(rule_set
    (selectors) @name.definition.selector) @definition.rule

(media_statement) @definition.media

(keyframes_statement
    (keyframes_name) @name.definition.keyframes) @definition.keyframes
"

def toml : String :=
  "
(table
    [(bare_key) (dotted_key) (quoted_key)] @name.definition.table) @definition.table

(table_array_element
    [(bare_key) (dotted_key) (quoted_key)] @name.definition.table) @definition.table
"

end SourceOutline.DefinitionQuery
